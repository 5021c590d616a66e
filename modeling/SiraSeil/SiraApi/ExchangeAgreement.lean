-- SUMMARY: Every operation of the service moves a case by a step of its negotiation and leaves the others alone, so that offers, acceptance and approval agree in every run.
import SiraSeil.SiraApi.Negotiation
import SiraSeil.SiraApi.ProjectionDelivery

/-!
# Agreement

The service refines the negotiation of each case. What stands in a negotiation then
stands in the tables, whatever calls of both parties run, in whatever order their
transactions commit and whichever of them crash, provided that no two different
offers have one hash.
-/

namespace SiraApi

open Domain Persistence Interleaving

/-- The approvals of a case. -/
def approvalsOf (db : Db) (organizationId caseId : String) : List BilateralOfferApproval :=
  db.approvals.filter (fun a => a.organizationId = organizationId ∧ a.caseId = caseId)

/-- The negotiation that the tables hold for a case. -/
def negotiationOf (db : Db) (c : BilateralExchangeCase) : Negotiation where
  state := c.coordinatorState.state
  offers := db.offersOf c.organizationId c.id
  approvals := approvalsOf db c.organizationId c.id
  commands := db.log c.organizationId c.id
  currentOffer := c.coordinatorState.currentOffer

structure Agreement (db : Db) : Prop where
  keyed : Table.Keyed (·.id) db.offers
  offered : ∀ o ∈ db.offers, ∃ c ∈ db.cases,
    c.id = o.terms.caseId ∧ c.organizationId = o.organizationId
  approved : ∀ a ∈ db.approvals, ∃ c ∈ db.cases,
    c.id = a.caseId ∧ c.organizationId = a.organizationId
  standing : ∀ c ∈ db.cases, (negotiationOf db c).Standing

/-- Offers have distinct ids, and every offer and every approval belongs to a case. -/
structure Filed (db : Db) : Prop where
  keyed : Table.Keyed (·.id) db.offers
  offered : ∀ o ∈ db.offers, ∃ c ∈ db.cases,
    c.id = o.terms.caseId ∧ c.organizationId = o.organizationId
  approved : ∀ a ∈ db.approvals, ∃ c ∈ db.cases,
    c.id = a.caseId ∧ c.organizationId = a.organizationId

theorem Agreement.filed {db : Db} (h : Agreement db) : Filed db :=
  ⟨h.keyed, h.offered, h.approved⟩

/-! ## Committing a command -/

/-- What a committed command does to the case tables, and what it leaves of the tables that
    were prepared for it. -/
structure Committed (db prepared db' : Db) (c c' : BilateralExchangeCase)
    (command : PartyCommandData) : Prop where
  mem : c' ∈ db'.cases
  id : c'.id = c.id
  organization : c'.organizationId = c.organizationId
  target : c.coordinatorState.state.target command.commandType = .ok c'.coordinatorState.state
  next : c'.coordinatorState = c.coordinatorState.advance c'.coordinatorState.state command
  cases : ∀ d ∈ db'.cases, d = c' ∨ d ∈ db.cases ∧ d.id ≠ c.id
  persists : ∀ d ∈ db.cases, d.id ≠ c.id → d ∈ db'.cases
  offers : db'.offers = prepared.offers
  approvals : db'.approvals = prepared.approvals
  log : db'.log c.organizationId c.id = db.log c.organizationId c.id ++ [command]
  logs : ∀ organizationId caseId, caseId ≠ c.id →
    db'.log organizationId caseId = db.log organizationId caseId

section Commit

variable {rt : Runtime} {db db' prepared : Db} {c c' : BilateralExchangeCase}

theorem committed_of_applyAndPublish {command : PartyCommand rt} {commandOrganizationId : String}
    {compiled : CompiledTransition} (h : Consistent rt db) (hc : c ∈ db.cases)
    (hsame : SameCases db prepared)
    (happly : applyAndPublish rt c.organizationId c command commandOrganizationId prepared =
      .ok (compiled, db')) :
    ∃ c', Committed db prepared db' c c' command.toPartyCommandData := by
  obtain ⟨transition, stateHash, between, record, happlied, hpublish⟩ :=
    applyAndPublish_eq_ok happly
  have hbetween : db' = { between with projections := db'.projections } := by
    rcases publishProjection_eq_ok hpublish with ⟨rfl, -⟩ | ⟨rfl, -⟩
    · rfl
    · rfl
  have hcases : db'.cases = Table.update (·.id) c.id
      (fun d => d.advance compiled.nextState stateHash command.id) db.cases := by
    rw [hbetween, happlied.leaves, hsame.cases]
  have htransitions : db'.transitions = db.transitions ++ [transition] := by
    rw [hbetween, happlied.leaves, hsame.transitions]
  refine ⟨c.advance compiled.nextState stateHash command.id, ?_⟩
  constructor
  · rw [hcases]
    exact Table.mem_update.mpr (.inl ⟨c, hc, rfl, rfl⟩)
  · rfl
  · rfl
  · exact happlied.compiles.target
  · exact happlied.compiles.next
  · intro d hd
    rw [hcases] at hd
    rcases Table.mem_update.mp hd with ⟨a, ha, hid, rfl⟩ | hd
    · obtain rfl := h.keyed.eq ha hc hid
      exact .inl rfl
    · exact .inr hd
  · intro d hd hid
    rw [hcases]
    exact Table.mem_update.mpr (.inr ⟨hd, hid⟩)
  · rw [hbetween, happlied.leaves]
  · rw [hbetween, happlied.leaves]
  · unfold Db.log Db.transitionsOf
    rw [htransitions, List.filter_append, List.filter_cons_of_pos
      (by simp [happlied.organization, happlied.caseId]), List.filter_nil, List.map_append,
      List.map_singleton, happlied.records]
  · intro organizationId caseId hid
    have hne : transition.caseId ≠ caseId := fun heq => hid (heq.symm.trans happlied.caseId)
    unfold Db.log Db.transitionsOf
    rw [htransitions, List.filter_append, List.filter_cons_of_neg (by simp [hne]),
      List.filter_nil, List.append_nil]

/-- The state a command leads to is one of the table, unless the command ends the
    exchange. -/
theorem Committed.transition {command : PartyCommandData}
    (h : Committed db prepared db' c c' command) (hends : command.commandType.ends = false) :
    c.coordinatorState.state.transition? command.commandType =
      some c'.coordinatorState.state := by
  have htarget := h.target
  unfold ExchangeState.target at htarget
  cases htype : command.commandType with
  | reject =>
    rw [htype] at hends
    cases hends
  | expire =>
    rw [htype] at hends
    cases hends
  | _ =>
    rw [htype] at htarget
    dsimp only at htarget
    split at htarget
    · next target hsome =>
      rw [hsome, Except.ok.inj htarget]
    · cases htarget

theorem Committed.currentOffer {command : PartyCommandData}
    (h : Committed db prepared db' c c' command) :
    c'.coordinatorState.currentOffer =
      if command.commandType ∈ [.proposeOffer, .counterOffer] then some command.payload
      else c.coordinatorState.currentOffer := by
  rw [h.next]
  unfold CoordinatorState.advance
  cases command.commandType <;> rfl

end Commit

/-! ## Preparing the offers of a case -/

/-- What a transaction does to offers and approvals before it commits its command: it
    changes those of one case. -/
structure Prepares (db prepared : Db) (c : BilateralExchangeCase) : Prop where
  keyed : Table.Keyed (·.id) prepared.offers
  offered : ∀ o ∈ prepared.offers, ∃ d ∈ db.cases,
    d.id = o.terms.caseId ∧ d.organizationId = o.organizationId
  approved : ∀ a ∈ prepared.approvals, ∃ d ∈ db.cases,
    d.id = a.caseId ∧ d.organizationId = a.organizationId
  offers : ∀ organizationId caseId, caseId ≠ c.id →
    prepared.offersOf organizationId caseId = db.offersOf organizationId caseId
  approvals : ∀ organizationId caseId, caseId ≠ c.id →
    approvalsOf prepared organizationId caseId = approvalsOf db organizationId caseId

/-- One case takes a step of its negotiation, and the others stay. -/
structure Moves (db db' : Db) (c c' : BilateralExchangeCase) : Prop where
  mem : c' ∈ db'.cases
  id : c'.id = c.id
  organization : c'.organizationId = c.organizationId
  step : (negotiationOf db c).Step (negotiationOf db' c')
  cases : ∀ d ∈ db'.cases, d = c' ∨ d ∈ db.cases ∧ d.id ≠ c.id
  persists : ∀ d ∈ db.cases, d.id ≠ c.id → d ∈ db'.cases
  others : ∀ d ∈ db.cases, d.id ≠ c.id → negotiationOf db' d = negotiationOf db d
  keyed : Table.Keyed (·.id) db'.offers
  offered : ∀ o ∈ db'.offers, ∃ d ∈ db.cases,
    d.id = o.terms.caseId ∧ d.organizationId = o.organizationId
  approved : ∀ a ∈ db'.approvals, ∃ d ∈ db.cases,
    d.id = a.caseId ∧ d.organizationId = a.organizationId

section Moves

variable {db db' prepared : Db} {c c' : BilateralExchangeCase} {organizationId caseId : String}

theorem offersOf_congr (h : db'.offers = db.offers) :
    db'.offersOf organizationId caseId = db.offersOf organizationId caseId := by
  unfold Db.offersOf
  rw [h]

theorem approvalsOf_congr (h : db'.approvals = db.approvals) :
    approvalsOf db' organizationId caseId = approvalsOf db organizationId caseId := by
  unfold approvalsOf
  rw [h]

theorem Prepares.same (h : Filed db) (hoffers : prepared.offers = db.offers)
    (happrovals : prepared.approvals = db.approvals) : Prepares db prepared c where
  keyed := hoffers ▸ h.keyed
  offered := hoffers ▸ h.offered
  approved := happrovals ▸ h.approved
  offers := fun _ _ _ => offersOf_congr hoffers
  approvals := fun _ _ _ => approvalsOf_congr happrovals

theorem Committed.negotiation {command : PartyCommandData}
    (h : Committed db prepared db' c c' command) :
    negotiationOf db' c' = {
      state := c'.coordinatorState.state
      offers := prepared.offersOf c.organizationId c.id
      approvals := approvalsOf prepared c.organizationId c.id
      commands := (negotiationOf db c).commands ++ [command]
      currentOffer := c'.coordinatorState.currentOffer } := by
  unfold negotiationOf
  rw [h.id, h.organization, offersOf_congr h.offers, approvalsOf_congr h.approvals, h.log]

theorem Committed.moves {command : PartyCommandData} (h : Committed db prepared db' c c' command)
    (hprepares : Prepares db prepared c)
    (hstep : (negotiationOf db c).Step (negotiationOf db' c')) : Moves db db' c c' where
  mem := h.mem
  id := h.id
  organization := h.organization
  step := hstep
  cases := h.cases
  persists := h.persists
  others := by
    intro d hd hid
    unfold negotiationOf
    rw [offersOf_congr h.offers, approvalsOf_congr h.approvals, hprepares.offers _ _ hid,
      hprepares.approvals _ _ hid, h.logs _ _ hid]
  keyed := h.offers ▸ hprepares.keyed
  offered := h.offers ▸ hprepares.offered
  approved := h.approvals ▸ hprepares.approved

theorem Moves.exists_row (h : Moves db db' c c') {d : BilateralExchangeCase} (hd : d ∈ db.cases)
    (hkeyed : Table.Keyed (·.id) db.cases) (hc : c ∈ db.cases) :
    ∃ d' ∈ db'.cases, d'.id = d.id ∧ d'.organizationId = d.organizationId := by
  by_cases hid : d.id = c.id
  · obtain rfl := hkeyed.eq hd hc hid
    exact ⟨c', h.mem, h.id, h.organization⟩
  · exact ⟨d, h.persists d hd hid, rfl, rfl⟩

theorem Moves.agreement (h : Moves db db' c c') (hagreement : Agreement db)
    (hkeyed : Table.Keyed (·.id) db.cases) (hc : c ∈ db.cases) : Agreement db' := by
  constructor
  · exact h.keyed
  · intro o ho
    obtain ⟨d, hd, hid, horg⟩ := h.offered o ho
    obtain ⟨d', hd', hid', horg'⟩ := h.exists_row hd hkeyed hc
    exact ⟨d', hd', hid'.trans hid, horg'.trans horg⟩
  · intro a ha
    obtain ⟨d, hd, hid, horg⟩ := h.approved a ha
    obtain ⟨d', hd', hid', horg'⟩ := h.exists_row hd hkeyed hc
    exact ⟨d', hd', hid'.trans hid, horg'.trans horg⟩
  · intro d hd
    rcases h.cases d hd with rfl | ⟨hd, hid⟩
    · have hids : Table.Keyed (·.id) (db.offersOf c.organizationId c.id) :=
        hagreement.keyed.filter _
      exact (hagreement.standing c hc).step hids h.step
    · rw [h.others d hd hid]
      exact hagreement.standing d hd

/-- Agreed cases stay agreed on the same terms. -/
def Kept (db db' : Db) : Prop :=
  ∀ c ∈ db.cases, (negotiationOf db c).Settled → ∃ c' ∈ db'.cases, c'.id = c.id ∧
    c'.organizationId = c.organizationId ∧ (negotiationOf db' c').Settled ∧
    (db'.offersOf c.organizationId c.id).map (·.terms) =
      (db.offersOf c.organizationId c.id).map (·.terms)

theorem Moves.kept (h : Moves db db' c c') (hkeyed : Table.Keyed (·.id) db.cases)
    (hc : c ∈ db.cases) : Kept db db' := by
  intro d hd hsettled
  by_cases hid : d.id = c.id
  · obtain rfl := hkeyed.eq hd hc hid
    obtain ⟨hsettled', hterms⟩ := hsettled.step h.step
    refine ⟨c', h.mem, h.id, h.organization, hsettled', ?_⟩
    rw [← h.id, ← h.organization]
    exact hterms.trans (by rw [h.id, h.organization]; rfl)
  · have hsame := h.others d hd hid
    exact ⟨d, h.persists d hd hid, rfl, rfl, hsame ▸ hsettled,
      congrArg (fun n => n.offers.map (·.terms)) hsame⟩

theorem Kept.trans {db'' : Db} (h : Kept db db') (h' : Kept db' db'') : Kept db db'' := by
  intro c hc hsettled
  obtain ⟨c', hc', hid, horg, hsettled', hterms⟩ := h c hc hsettled
  obtain ⟨c'', hc'', hid', horg', hsettled'', hterms'⟩ := h' c' hc' hsettled'
  refine ⟨c'', hc'', hid'.trans hid, horg'.trans horg, hsettled'', ?_⟩
  rw [hid, horg] at hterms'
  exact hterms'.trans hterms

end Moves

/-! ## Proposals -/

section Offers

variable {db db' prepared : Db} {c : BilateralExchangeCase} {organizationId caseId : String}
  {record latest : BilateralOfferVersion}

theorem offersOf_append (h : db'.offers = db.offers ++ [record])
    (hkeys : record.organizationId = organizationId ∧ record.terms.caseId = caseId) :
    db'.offersOf organizationId caseId = db.offersOf organizationId caseId ++ [record] := by
  unfold Db.offersOf
  rw [h, List.filter_append, List.filter_cons_of_pos (by simpa using hkeys), List.filter_nil]

theorem offersOf_append_of_ne (h : db'.offers = db.offers ++ [record])
    (hne : record.terms.caseId ≠ caseId) :
    db'.offersOf organizationId caseId = db.offersOf organizationId caseId := by
  unfold Db.offersOf
  rw [h, List.filter_append, List.filter_cons_of_neg (by simp [hne]), List.filter_nil,
    List.append_nil]

variable {approval : BilateralOfferApproval} {status : OfferApprovalStatus}

theorem approvalsOf_append (h : db'.approvals = db.approvals ++ [approval])
    (hkeys : approval.organizationId = organizationId ∧ approval.caseId = caseId) :
    approvalsOf db' organizationId caseId =
      approvalsOf db organizationId caseId ++ [approval] := by
  unfold approvalsOf
  rw [h, List.filter_append, List.filter_cons_of_pos (by simpa using hkeys), List.filter_nil]

theorem approvalsOf_append_of_ne (h : db'.approvals = db.approvals ++ [approval])
    (hne : approval.caseId ≠ caseId) :
    approvalsOf db' organizationId caseId = approvalsOf db organizationId caseId := by
  unfold approvalsOf
  rw [h, List.filter_append, List.filter_cons_of_neg (by simp [hne]), List.filter_nil,
    List.append_nil]

theorem offersOf_update {k : String}
    (h : db'.offers = Table.update (·.id) k (·.withStatus status) db.offers) :
    db'.offersOf organizationId caseId =
      Table.update (·.id) k (·.withStatus status) (db.offersOf organizationId caseId) := by
  unfold Db.offersOf
  rw [h]
  exact Table.filter_update (fun _ => rfl)

theorem offersOf_update_of_ne (hkeyed : Table.Keyed (·.id) db.offers) (hlatest : latest ∈ db.offers)
    (h : db'.offers = Table.update (·.id) latest.id (·.withStatus status) db.offers)
    (hne : latest.terms.caseId ≠ caseId) :
    db'.offersOf organizationId caseId = db.offersOf organizationId caseId := by
  rw [offersOf_update h]
  apply Table.update_of_forall_ne
  intro r hr hid
  obtain ⟨hr, hkeys⟩ := List.mem_filter.mp hr
  obtain rfl := hkeyed.eq hr hlatest hid
  have hkeys : r.organizationId = organizationId ∧ r.terms.caseId = caseId := by simpa using hkeys
  exact hne hkeys.2

theorem mem_of_latestOffer (h : db.latestOffer organizationId caseId = some latest) :
    latest ∈ db.offers ∧ latest.organizationId = organizationId ∧
      latest.terms.caseId = caseId := by
  obtain ⟨hmem, hkeys⟩ := List.mem_filter.mp (Table.latest_mem h)
  have hkeys : latest.organizationId = organizationId ∧ latest.terms.caseId = caseId := by
    simpa using hkeys
  exact ⟨hmem, hkeys⟩

theorem exists_of_mem_update {offers : List BilateralOfferVersion} {k : String}
    {o : BilateralOfferVersion} (h : o ∈ Table.update (·.id) k (·.withStatus status) offers) :
    ∃ o' ∈ offers, o'.terms = o.terms ∧ o'.organizationId = o.organizationId := by
  rcases Table.mem_update.mp h with ⟨a, ha, -, rfl⟩ | ⟨ho, -⟩
  · exact ⟨a, ha, rfl, rfl⟩
  · exact ⟨o, ho, rfl, rfl⟩

theorem Prepares.append {between : Db} (h : Prepares db between c) (hc : c ∈ db.cases)
    (horg : record.organizationId = c.organizationId) (hcase : record.terms.caseId = c.id)
    (hid : ∀ o ∈ between.offers, o.id ≠ record.id)
    (hoffers : prepared.offers = between.offers ++ [record])
    (happrovals : prepared.approvals = between.approvals) : Prepares db prepared c where
  keyed := hoffers ▸ h.keyed.append hid
  offered := by
    intro o ho
    rw [hoffers] at ho
    rcases List.mem_append.mp ho with ho | ho
    · exact h.offered o ho
    · rw [List.mem_singleton.mp ho]
      exact ⟨c, hc, hcase.symm, horg.symm⟩
  approved := happrovals ▸ h.approved
  offers := by
    intro organizationId caseId hne
    rw [offersOf_append_of_ne hoffers (hcase ▸ Ne.symm hne)]
    exact h.offers organizationId caseId hne
  approvals := by
    intro organizationId caseId hne
    rw [approvalsOf_congr happrovals]
    exact h.approvals organizationId caseId hne

theorem Prepares.update (h : Filed db)
    (hlatest : db.latestOffer c.organizationId c.id = some latest)
    (hoffers : prepared.offers = Table.update (·.id) latest.id (·.withStatus status) db.offers)
    (happrovals : prepared.approvals = db.approvals) : Prepares db prepared c where
  keyed := hoffers ▸ h.keyed.update (fun _ => rfl)
  offered := by
    intro o ho
    rw [hoffers] at ho
    obtain ⟨o', ho', hterms, horg⟩ := exists_of_mem_update ho
    obtain ⟨d, hd, hid, hdorg⟩ := h.offered o' ho'
    exact ⟨d, hd, hterms ▸ hid, horg ▸ hdorg⟩
  approved := happrovals ▸ h.approved
  offers := by
    intro organizationId caseId hne
    obtain ⟨hmem, -, hcase⟩ := mem_of_latestOffer hlatest
    exact offersOf_update_of_ne h.keyed hmem hoffers (hcase ▸ Ne.symm hne)
  approvals := fun _ _ _ => approvalsOf_congr happrovals

theorem Prepares.approve {between : Db} (h : Prepares db between c) (hc : c ∈ db.cases)
    (horg : approval.organizationId = c.organizationId) (hcase : approval.caseId = c.id)
    (hoffers : prepared.offers = between.offers)
    (happrovals : prepared.approvals = between.approvals ++ [approval]) :
    Prepares db prepared c where
  keyed := hoffers ▸ h.keyed
  offered := hoffers ▸ h.offered
  approved := by
    intro a ha
    rw [happrovals] at ha
    rcases List.mem_append.mp ha with ha | ha
    · exact h.approved a ha
    · rw [List.mem_singleton.mp ha]
      exact ⟨c, hc, hcase.symm, horg.symm⟩
  offers := by
    intro organizationId caseId hne
    rw [offersOf_congr hoffers]
    exact h.offers organizationId caseId hne
  approvals := by
    intro organizationId caseId hne
    rw [approvalsOf_append_of_ne happrovals (hcase ▸ Ne.symm hne)]
    exact h.approvals organizationId caseId hne

end Offers

/-! ## What each operation does to its case -/

section Transitions

variable {state target : ExchangeState}

theorem transition?_releaseRequirement
    (h : state.transition? .releaseRequirement = some target) :
    state = .created ∧ target = .requirementReleased := by
  cases state <;> cases h
  exact ⟨rfl, rfl⟩

theorem transition?_acceptOffer (h : state.transition? .acceptOffer = some target) :
    state = .offered ∧ target = .agreedPendingApproval := by
  cases state <;> cases h
  exact ⟨rfl, rfl⟩

theorem transition?_acceptCounter (h : state.transition? .acceptCounter = some target) :
    state = .countered ∧ target = .agreedPendingApproval := by
  cases state <;> cases h
  exact ⟨rfl, rfl⟩

theorem transition?_approveHandoff (h : state.transition? .approveHandoff = some target) :
    state = .agreedPendingApproval ∧ target = .approvedForHandoff := by
  cases state <;> cases h
  exact ⟨rfl, rfl⟩

theorem transition?_publishEvidence (h : state.transition? .publishEvidence = some target) :
    state = .requirementReleased ∧ target = .evidenceReleased := by
  cases state <;> cases h
  exact ⟨rfl, rfl⟩

end Transitions

/-- An offer that is about to be stored shares its hash with no stored offer of other
    content. -/
def CollisionFree (s : ExchangeService) (stage : Stage s.rt) (_ : Int) (store : Store) : Prop :=
  match stage with
  | .work caller route party (.proposal proposal) =>
    ∀ c ∈ store.db.cases, c.organizationId = route.buyerOrganizationId → c.id = caller.caseId →
      ∀ commandType offer,
        s.buildOffer caller.caseId party proposal c.coordinatorState
          (store.db.latestOffer route.buyerOrganizationId caller.caseId) =
            .ok (commandType, offer) →
        ∀ o ∈ store.db.offers, o.terms.offerHash = offer.offerHash →
          o.terms.hashPayload = offer.hashPayload
  | _ => True

/-- A call that publishes evidence carries a command that publishes evidence. -/
def Stage.Typed {rt : Runtime} : Stage rt → Prop
  | .replay _ _ _ (.evidence command) | .append _ _ _ command | .work _ _ _ (.evidence command) =>
    command.commandType = .publishEvidence
  | _ => True

section Operations

variable {s : ExchangeService} {db db' : Db} {caller : Commanding} {route : ExchangeRoute}
  {party : ExchangeParty} {compiled : CompiledTransition} {now : Datetime}

theorem moves_of_evidence {command : PartyCommand s.rt} (h : Consistent s.rt db)
    (hagreement : Agreement db) (htype : command.commandType = .publishEvidence)
    (htransaction : s.evidenceTransaction caller route command db = .ok (compiled, db')) :
    ∃ c ∈ db.cases, ∃ c', Moves db db' c c' := by
  obtain ⟨c, happlies⟩ := evidenceTransaction_eq_ok htransaction
  obtain ⟨commandOrganizationId, happly⟩ := happlies.applies
  obtain ⟨c', hcommitted⟩ := committed_of_applyAndPublish h happlies.mem ⟨rfl, rfl, rfl⟩ happly
  have htransition := hcommitted.transition (by rw [htype]; rfl)
  rw [htype] at htransition
  obtain ⟨hstate, hstate'⟩ := transition?_publishEvidence htransition
  refine ⟨c, happlies.mem, c', hcommitted.moves (.same hagreement.filed rfl rfl) ?_⟩
  rw [hcommitted.negotiation, hcommitted.currentOffer, hstate', htype, if_neg (by decide)]
  exact .evidence hstate htype

theorem version_lt_of_proposalStep {n : Negotiation} (h : n.Standing) {commandType : CommandType}
    {version : Nat} {predecessorHash : Option String}
    (hstep : proposalStep n.state party (Table.latest (·.terms.version) n.offers) =
      .ok (commandType, version, predecessorHash)) :
    ∀ o ∈ n.offers, o.terms.version < version := by
  intro o ho
  rcases proposalStep_eq_ok hstep with ⟨hstate, -, -, -, -⟩ |
    ⟨latest, -, -, hlatest, -, rfl, -⟩
  · unfold Negotiation.Standing at h
    simp only [hstate] at h
    rw [h.1] at ho
    exact absurd ho List.not_mem_nil
  · have hle := Table.le_of_latest hlatest ho
    exact Nat.lt_succ_of_le hle

theorem moves_of_propose {proposal : Proposal} {time : Int} {store : Store}
    (h : Consistent s.rt store.db) (hagreement : Agreement store.db)
    (hfree : CollisionFree s (.work caller route party (.proposal proposal)) time store)
    (htransaction : s.proposeTransaction caller route party proposal store.db =
      .ok (compiled, db')) :
    ∃ c ∈ store.db.cases, ∃ c', Moves store.db db' c c' := by
  obtain ⟨c, command, commandType, offer, record, stored, appended, prepared, happlies, hbuild,
    hcommand, hstore, happend⟩ := proposeTransaction_eq_ok htransaction
  have hsingle := hfree c happlies.mem happlies.organization happlies.id commandType offer hbuild
  rw [← happlies.organization] at hbuild hstore happend
  rw [← happlies.id] at hbuild
  obtain ⟨hproposal, hcase, hproposer, hrecipient, hpending⟩ := buildOffer_eq_ok hbuild
  have hstanding := hagreement.standing c happlies.mem
  obtain ⟨htype, hpayload, -⟩ := commandOf_eq_ok hcommand
  rcases storeOffer_eq_ok hstore with ⟨-, hmem, horg, hhash⟩ | ⟨offers, hsupersede, hid, rfl, rfl⟩
  · -- The offer would be one of its case already, but its version is beyond all of them.
    obtain ⟨hcase', hversion⟩ := OfferVersionData.keys_of_hashPayload (hsingle record hmem hhash)
    have hof : record ∈ store.db.offersOf c.organizationId c.id := by
      unfold Db.offersOf
      rw [List.mem_filter]
      exact ⟨hmem, by simp [horg, hcase', hcase]⟩
    have hlt := version_lt_of_proposalStep hstanding hproposal record hof
    exact absurd hversion (Nat.ne_of_lt hlt)
  · obtain ⟨commandOrganizationId, happly⟩ := happlies.applies
    have hprepared := appendCommand_frame happend
    have hsame : SameCases store.db prepared :=
      (sameCases_of_storeOffer hstore).trans (sameCases_of_appendCommand happend)
    obtain ⟨c', hcommitted⟩ := committed_of_applyAndPublish h happlies.mem hsame happly
    have hoffers : prepared.offers = offers ++ [⟨c.organizationId, offer, offer.approvalStatus⟩] := by
      rw [hprepared]
    have happrovals : prepared.approvals = store.db.approvals := by rw [hprepared]
    refine ⟨c, happlies.mem, c', ?_⟩
    rw [← hcase] at hproposal
    have hofs : prepared.offersOf c.organizationId c.id =
        Db.offersOf { store.db with offers } c.organizationId c.id ++
          [⟨c.organizationId, offer, offer.approvalStatus⟩] :=
      offersOf_append hoffers ⟨rfl, hcase⟩
    rcases supersedeLatest_eq_ok hsupersede with ⟨hnone, hone, rfl⟩ | ⟨latest, hlatest, hvalid, rfl⟩
    · -- The first offer of the case.
      rcases proposalStep_eq_ok hproposal with ⟨hstate, rfl, htype', -, hpredecessor⟩ |
        ⟨latest, -, -, hlatest, -⟩
      · have hfirst : First offer :=
          ⟨hone, hpredecessor, hproposer, hrecipient.trans (if_pos rfl)⟩
        have hmoved := hcommitted.transition (by rw [htype, htype']; rfl)
        rw [htype, htype', hstate] at hmoved
        obtain hstate' := Option.some.inj hmoved
        have hprepares : Prepares store.db prepared c := by
          apply (Prepares.same hagreement.filed rfl rfl).append happlies.mem _ hcase _ hoffers happrovals
          · rfl
          · exact hid
        refine hcommitted.moves hprepares ?_
        rw [hcommitted.negotiation, hcommitted.currentOffer, ← hstate', htype, htype',
          if_pos (by decide), hpayload, hofs, approvalsOf_congr happrovals]
        exact .propose hstate (htype.trans htype') hfirst hpending
      · rw [hnone] at hlatest
        cases hlatest
    · -- A counteroffer to the latest one.
      rcases proposalStep_eq_ok hproposal with ⟨hstate, -, -, -, -⟩ |
        ⟨latest', hstate, rfl, hlatest', htype', -, -⟩
      · unfold Negotiation.Standing at hstanding
        simp only [negotiationOf, hstate] at hstanding
        rw [hcase] at hlatest
        have hmem := Table.latest_mem hlatest
        rw [hstanding.1] at hmem
        exact absurd hmem List.not_mem_nil
      · obtain ⟨-, hversion, hpredecessor, hproposer', hrecipient'⟩ :=
          validateCounteroffer_eq_ok hvalid
        rw [hcase] at hlatest
        have hmoved := hcommitted.transition (by rw [htype, htype']; rfl)
        rw [htype, htype', hstate] at hmoved
        obtain hstate' := Option.some.inj hmoved
        have hsuperseded : Prepares store.db { store.db with
            offers := Table.update (·.id) latest.id (·.withStatus .superseded) store.db.offers } c :=
          .update hagreement.filed hlatest rfl rfl
        have hprepares : Prepares store.db prepared c := by
          apply hsuperseded.append happlies.mem _ hcase _ hoffers happrovals
          · rfl
          · exact hid
        refine hcommitted.moves hprepares ?_
        rw [hcommitted.negotiation, hcommitted.currentOffer, ← hstate', htype, htype',
          if_pos (by decide), hpayload, hofs, approvalsOf_congr happrovals, offersOf_update rfl]
        exact .counter hstate (htype.trans htype') hlatest
          ⟨hversion, hpredecessor, hproposer', hrecipient'⟩ hpending

theorem moves_of_accept {offerHash : String} (h : Consistent s.rt db) (hagreement : Agreement db)
    (htransaction : s.acceptTransaction caller route party offerHash now db =
      .ok (compiled, db')) :
    ∃ c ∈ db.cases, ∃ c', Moves db db' c c' := by
  obtain ⟨c, command, latest, appended, prepared, happlies, hlatest, hhash, hparty, hcommand,
    happend⟩ := acceptTransaction_eq_ok htransaction
  obtain ⟨htype, hpayload, hby⟩ := commandOf_eq_ok hcommand
  obtain ⟨commandOrganizationId, happly⟩ := happlies.applies
  have hprepared := appendCommand_frame happend
  have hoffers : prepared.offers = db.offers := by rw [hprepared]
  have happrovals : prepared.approvals = db.approvals := by rw [hprepared]
  obtain ⟨c', hcommitted⟩ := committed_of_applyAndPublish h happlies.mem
    (sameCases_of_appendCommand happend) happly
  have haccepts : Accepts command.toPartyCommandData latest.terms :=
    ⟨hby.trans hparty, hpayload.trans (by rw [hhash])⟩
  rw [← happlies.organization, ← happlies.id] at hlatest
  refine ⟨c, happlies.mem, c', hcommitted.moves (.same hagreement.filed hoffers happrovals) ?_⟩
  rw [hcommitted.negotiation, hcommitted.currentOffer, offersOf_congr hoffers,
    approvalsOf_congr happrovals]
  by_cases hoffered : c.coordinatorState.state = .offered
  · rw [if_pos hoffered] at htype
    have hmoved := hcommitted.transition (by rw [htype]; rfl)
    rw [htype] at hmoved
    obtain ⟨-, hstate'⟩ := transition?_acceptOffer hmoved
    rw [hstate', if_neg (by rw [htype]; decide)]
    exact .accept (.inl ⟨hoffered, htype⟩) hlatest haccepts
  · rw [if_neg hoffered] at htype
    have hmoved := hcommitted.transition (by rw [htype]; rfl)
    rw [htype] at hmoved
    obtain ⟨hstate, hstate'⟩ := transition?_acceptCounter hmoved
    rw [hstate', if_neg (by rw [htype]; decide)]
    exact .accept (.inr ⟨hstate, htype⟩) hlatest haccepts

theorem moves_of_approve {offerHash : String} {approvalExpiresAt approvedAt : Datetime}
    (h : Consistent s.rt db) (hagreement : Agreement db)
    (htransaction : s.approveTransaction caller route offerHash approvalExpiresAt approvedAt db =
      .ok (compiled, db')) :
    ∃ c ∈ db.cases, ∃ c', Moves db db' c c' := by
  obtain ⟨c, command, approvalHash, record, approved, appended, prepared, happlies, happrove, -,
    hcommand, happend⟩ := approveTransaction_eq_ok htransaction
  obtain ⟨htype, -, -⟩ := commandOf_eq_ok hcommand
  obtain ⟨commandOrganizationId, happly⟩ := happlies.applies
  have hprepared := appendCommand_frame happend
  obtain ⟨c', hcommitted⟩ := committed_of_applyAndPublish h happlies.mem
    ((sameCases_of_approveOffer happrove).trans (sameCases_of_appendCommand happend)) happly
  have hmoved := hcommitted.transition (by rw [htype]; rfl)
  rw [htype] at hmoved
  obtain ⟨hstate, hstate'⟩ := transition?_approveHandoff hmoved
  have hcase : (s.approvalOf caller offerHash approvalExpiresAt approvedAt).caseId = c.id :=
    happlies.id.symm
  rw [← happlies.organization] at happrove
  refine ⟨c, happlies.mem, c', ?_⟩
  rcases approveOffer_eq_ok happrove with ⟨-, hmem, horg, hrecord, -⟩ |
    ⟨latest, hlatest, hhash, horg, hrecord, hrecordHash, rfl⟩
  · -- Nothing was approved before the agreement is.
    have hstanding := hagreement.standing c happlies.mem
    unfold Negotiation.Standing at hstanding
    simp only [negotiationOf, hstate] at hstanding
    obtain ⟨-, -, -, hnone, -⟩ := hstanding
    have hof : record ∈ approvalsOf db c.organizationId c.id := by
      unfold approvalsOf
      rw [List.mem_filter]
      exact ⟨hmem, by simp [horg, hrecord, hcase]⟩
    rw [hnone] at hof
    exact absurd hof List.not_mem_nil
  · rw [hcase] at hlatest hrecord
    have hoffers : prepared.offers =
        Table.update (·.id) latest.id (·.withStatus .approved) db.offers := by rw [hprepared]
    have happrovals : prepared.approvals = db.approvals ++ [record] := by rw [hprepared]
    have hupdated : Prepares db { db with
        offers := Table.update (·.id) latest.id (·.withStatus .approved) db.offers } c :=
      .update hagreement.filed hlatest rfl rfl
    refine hcommitted.moves (hupdated.approve happlies.mem horg hrecord hoffers happrovals) ?_
    rw [hcommitted.negotiation, hcommitted.currentOffer, offersOf_update hoffers,
      approvalsOf_append happrovals ⟨horg, hrecord⟩, hstate', htype, if_neg (by decide)]
    exact .approve hstate htype hlatest (hrecordHash.trans hhash)

theorem moves_of_transaction {work : Work s.rt} {time : Int} {store : Store}
    (h : Consistent s.rt store.db) (hagreement : Agreement store.db)
    (htyped : (Stage.work caller route party work).Typed)
    (hfree : CollisionFree s (.work caller route party work) time store)
    (htransaction : s.transaction caller route party work now store.db = .ok (compiled, db')) :
    ∃ c ∈ store.db.cases, ∃ c', Moves store.db db' c c' := by
  cases work with
  | evidence command => exact moves_of_evidence h hagreement htyped htransaction
  | proposal proposal => exact moves_of_propose h hagreement hfree htransaction
  | acceptance offerHash => exact moves_of_accept h hagreement htransaction
  | approval offerHash approvalExpiresAt approvedAt =>
    exact moves_of_approve h hagreement htransaction

/-! ## Opening a case -/

theorem Agreement.congr (h : Agreement db) (hcases : db'.cases = db.cases)
    (htransitions : db'.transitions = db.transitions) (hoffers : db'.offers = db.offers)
    (happrovals : db'.approvals = db.approvals) : Agreement db' ∧ Kept db db' := by
  have hsame : ∀ c, negotiationOf db' c = negotiationOf db c := by
    intro c
    unfold negotiationOf Db.log Db.transitionsOf
    rw [offersOf_congr hoffers, approvalsOf_congr happrovals, htransitions]
  constructor
  · constructor
    · exact hoffers ▸ h.keyed
    · exact hoffers ▸ hcases ▸ h.offered
    · exact happrovals ▸ hcases ▸ h.approved
    · intro c hc
      rw [hsame]
      exact h.standing c (hcases ▸ hc)
  · intro c hc hsettled
    exact ⟨c, hcases ▸ hc, rfl, rfl, (hsame c).symm ▸ hsettled,
      congrArg (fun n => n.offers.map (·.terms)) (hsame c)⟩

theorem agreement_of_createCase {organizationId caseId sellerOrganizationId : String}
    {record : BilateralExchangeCase} (h : Consistent s.rt db) (hagreement : Agreement db)
    (hcreate : createCase s.rt organizationId caseId sellerOrganizationId db = .ok (record, db')) :
    Agreement db' ∧ Kept db db' := by
  rcases createCase_eq_ok hcreate with ⟨-, -, -, rfl⟩ | ⟨hfresh, hnew, rfl⟩
  · exact hagreement.congr rfl rfl rfl rfl
  · have hin : ∀ c ∈ db.cases, c ∈ db.cases ++ [record] := fun c hc => List.mem_append_left _ hc
    have hoffers : db.offersOf record.organizationId record.id = [] := by
      refine List.filter_eq_nil_iff.mpr (fun o ho hkeys => ?_)
      obtain ⟨c, hc, hid, -⟩ := hagreement.offered o ho
      have hkeys : o.organizationId = record.organizationId ∧ o.terms.caseId = record.id := by
        simpa using hkeys
      exact hnew c hc (hid.trans (hkeys.2.trans hfresh.id))
    have happrovals : approvalsOf db record.organizationId record.id = [] := by
      refine List.filter_eq_nil_iff.mpr (fun a ha hkeys => ?_)
      obtain ⟨c, hc, hid, -⟩ := hagreement.approved a ha
      have hkeys : a.organizationId = record.organizationId ∧ a.caseId = record.id := by
        simpa using hkeys
      exact hnew c hc (hid.trans (hkeys.2.trans hfresh.id))
    have hlog : db.log record.organizationId record.id = [] :=
      congrArg (List.map BilateralTransition.command) (h.transitionsOf_eq_nil (hfresh.id ▸ hnew))
    constructor
    · constructor
      · exact hagreement.keyed
      · intro o ho
        obtain ⟨c, hc, hkeys⟩ := hagreement.offered o ho
        exact ⟨c, hin c hc, hkeys⟩
      · intro a ha
        obtain ⟨c, hc, hkeys⟩ := hagreement.approved a ha
        exact ⟨c, hin c hc, hkeys⟩
      · intro c hc
        rcases List.mem_append.mp hc with hc | hc
        · exact hagreement.standing c hc
        · obtain rfl := List.mem_singleton.mp hc
          have hempty : negotiationOf { db with cases := db.cases ++ [c] } c =
              ⟨.created, [], [], [], none⟩ := by
            rw [← hoffers, ← happrovals, ← hlog]
            unfold negotiationOf
            rw [hfresh.coordinator]
            rfl
          rw [hempty]
          exact ⟨rfl, rfl, rfl, rfl⟩
    · exact fun c hc hsettled => ⟨c, hin c hc, rfl, rfl, hsettled, rfl⟩

theorem agreement_of_createCaseTransaction {request : CreateCase} {sellerOrganizationId : String}
    {opening : Opening} (h : Consistent s.rt db) (hagreement : Agreement db)
    (htransaction : s.createCaseTransaction request sellerOrganizationId now db =
      .ok (opening, db')) : Agreement db' ∧ Kept db db' := by
  obtain ⟨c, created, hcreate, hcases⟩ := createCaseTransaction_eq_ok htransaction
  obtain ⟨hcreated, -, hmem⟩ := h.create hcreate
  obtain ⟨hagreement', hkept⟩ := agreement_of_createCase h hagreement hcreate
  rcases hcases with ⟨-, -, rfl⟩ |
    ⟨-, command, compiled, prepared, commandOrganizationId, -, htype, hprepared, happly⟩
  · exact ⟨hagreement', hkept⟩
  · have hsame : SameCases created prepared := by
      rw [hprepared]
      exact ⟨rfl, rfl, rfl⟩
    have hoffers : prepared.offers = created.offers := by rw [hprepared]
    have happrovals : prepared.approvals = created.approvals := by rw [hprepared]
    rw [← createCase_organization hcreate] at happly
    obtain ⟨c', hcommitted⟩ := committed_of_applyAndPublish hcreated hmem hsame happly
    have hmoved := hcommitted.transition (by rw [htype]; rfl)
    rw [htype] at hmoved
    obtain ⟨hstate, hstate'⟩ := transition?_releaseRequirement hmoved
    have hmoves : Moves created db' c c' := by
      refine hcommitted.moves (.same hagreement'.filed hoffers happrovals) ?_
      rw [hcommitted.negotiation, hcommitted.currentOffer, offersOf_congr hoffers,
        approvalsOf_congr happrovals, hstate', htype, if_neg (by decide)]
      exact .release hstate htype
    exact ⟨hmoves.agreement hagreement' hcreated.keyed hmem,
      hkept.trans (hmoves.kept hcreated.keyed hmem)⟩

/-! ## Runs -/

theorem Stage.Idle.typed {rt : Runtime} {stage : Stage rt} (h : stage.Idle) : stage.Typed := by
  cases stage with
  | replay | append | work => exact absurd h not_false
  | _ => exact trivial

theorem Step.agreement {store : Store} {stage : Stage s.rt} {after : Stage s.rt × Store}
    {time : Int} (hstep : Step s store stage after) (h : Consistent s.rt store.db)
    (hagreement : Agreement store.db) (htyped : stage.Typed)
    (hfree : CollisionFree s stage time store) :
    (Agreement after.2.db ∧ Kept store.db after.2.db) ∧ after.1.Typed := by
  cases hstep with
  | idle hfrom hto => exact ⟨hagreement.congr rfl rfl rfl rfl, hto.typed⟩
  | @proceeds caller route party work stage' hto =>
    refine ⟨hagreement.congr rfl rfl rfl rfl, ?_⟩
    rcases hto with ⟨command, rfl, rfl⟩ | rfl
    · exact htyped
    · cases work with
      | evidence command => exact htyped
      | _ => exact trivial
  | opens htransaction hcompiled =>
    exact ⟨agreement_of_createCaseTransaction h hagreement htransaction, trivial⟩
  | reopens htransaction hcompiled =>
    exact ⟨agreement_of_createCaseTransaction h hagreement htransaction,
      (finishWith_idle _ _ _).typed⟩
  | appends happend =>
    refine ⟨?_, htyped⟩
    rw [appendCommand_frame happend]
    exact hagreement.congr rfl rfl rfl rfl
  | works htransaction =>
    obtain ⟨c, hc, c', hmoves⟩ := moves_of_transaction h hagreement htyped hfree htransaction
    exact ⟨⟨hmoves.agreement hagreement h.keyed hc, hmoves.kept h.keyed hc⟩, trivial⟩
  | publishes hpublish =>
    obtain ⟨-, -, hpublish⟩ := Raising.bind_eq_ok.mp hpublish
    refine ⟨?_, (finishWith_idle _ _ _).typed⟩
    rcases publishProjection_eq_ok hpublish with ⟨rfl, -⟩ | ⟨rfl, -⟩
    · exact hagreement.congr rfl rfl rfl rfl
    · exact hagreement.congr rfl rfl rfl rfl
  | withholds hpublish => exact ⟨hagreement.congr rfl rfl rfl rfl, trivial⟩
  | hands hfrom => exact ⟨hagreement.congr rfl rfl rfl rfl, trivial⟩

theorem start_typed (request : Request) (time : Int) (store : Store) :
    (s.system.start request time store).Typed := by
  obtain ⟨stage, hstage, hstarts | ⟨error, rfl⟩⟩ := start_cases request time store
  · rw [hstage]
    cases hstarts with
    | publishEvidence hdecode hparty hcommand => exact (evidenceCommand_eq_ok hcommand).2.1
    | _ => exact trivial
  · rw [hstage]
    exact trivial

theorem start_waits (request : Request) (time : Int) (store : Store) :
    (s.system.start request time store).Waits store.db := by
  obtain ⟨stage, hstage, hstarts | ⟨error, rfl⟩⟩ := start_cases request time store
  · rw [hstage]
    cases hstarts <;> exact trivial
  · rw [hstage]
    exact trivial

theorem Kept.refl (db : Db) : Kept db db :=
  fun c hc hsettled => ⟨c, hc, rfl, rfl, hsettled, rfl⟩

theorem agreement_empty : Agreement {} where
  keyed := Table.keyed_nil
  offered := fun _ h => nomatch h
  approved := fun _ h => nomatch h
  standing := fun _ h => nomatch h

theorem agreement_outline (s : ExchangeService) :
    System.Outline s.system (CollisionFree s)
      (fun store => Consistent s.rt store.db ∧ Agreement store.db)
      (fun store stage => stage.Waits store.db ∧ stage.Typed) where
  start := fun store request time _ => ⟨start_waits request time store, start_typed request time store⟩
  store := by
    intro store stage time hstore hstage hfree
    have hstep : Step s store stage (s.next stage time store) := step_next stage time store
    exact ⟨(hstep.consistent hstore.1 hstage.1).1,
      (hstep.agreement hstore.1 hstore.2 hstage.2 hfree).1.1⟩
  own := by
    intro store stage time hstore hstage hfree
    have hstep : Step s store stage (s.next stage time store) := step_next stage time store
    exact ⟨(hstep.consistent hstore.1 hstage.1).2.2,
      (hstep.agreement hstore.1 hstore.2 hstage.2 hfree).2⟩
  other := by
    intro store stage other time hstore hstage hother hfree
    have hstep : Step s store stage (s.next stage time store) := step_next stage time store
    exact ⟨hother.1.mono (hstep.consistent hstore.1 hstage.1).2.1, hother.2⟩

theorem kept_of_run {w : World Store (Stage s.rt)} {later : List (Event Request Int)}
    (hstore : Consistent s.rt w.store.db ∧ Agreement w.store.db)
    (hcalls : ∀ stage ∈ w.calls, stage.Waits w.store.db ∧ stage.Typed)
    (halong : s.system.Along (System.StepsMeet (CollisionFree s)) w later) :
    Kept w.store.db (s.system.run w later).store.db := by
  apply (agreement_outline s).run_related (R := fun store store' => Kept store.db store'.db)
    (fun store => .refl _) (fun _ _ _ h h' => h.trans h') _ hstore hcalls halong
  intro store stage time hstore hstage hfree
  exact ((step_next stage time store).agreement hstore.1 hstore.2 hstage.2 hfree).1.2

end Operations

/-! ## Agreement in every run -/

/-- The tables after a run of the service that starts with empty ones. -/
def ExchangeService.tablesAfter (s : ExchangeService) (events : List (Event Request Int)) : Db :=
  (s.system.run ⟨{}, []⟩ events).store.db

theorem collisionFree_start {s : ExchangeService} (request : Request) (time given : Int)
    (store store' : Store) : CollisionFree s (s.system.start request time store) given store' := by
  obtain ⟨stage, hstage, hstarts | ⟨error, rfl⟩⟩ := start_cases request time store
  · rw [hstage]
    cases hstarts <;> exact trivial
  · rw [hstage]
    exact trivial

theorem collisionFree_retried (s : ExchangeService) (request retry : Request)
    (t₁ t₂ t₃ t₄ : Int) :
    s.system.Along (System.StepsMeet (CollisionFree s)) ⟨{}, []⟩
      [.start request t₁, .advance 0 t₂, .crash 0, .start retry t₃, .advance 0 t₄] := by
  refine ⟨trivial, ?_, trivial, trivial, ?_, trivial⟩
  · intro stage hstage
    obtain rfl := Option.some.inj hstage
    exact collisionFree_start _ _ _ _ _
  · intro stage hstage
    obtain rfl := Option.some.inj hstage
    exact collisionFree_start _ _ _ _ _

end SiraApi
