-- SUMMARY: What the success of an operation says: its command was applied, in every run whose replay checks find no transition of another command under the same idempotency key.
import SiraSeil.SiraApi.ExchangeAgreement
import SiraSeil.SiraApi.ProjectionDelivery

/-!
# Replayed commands

An operation that finds a transition under its command id returns the projection of its
case as if the transition were its own. The command id comes from the case and the
idempotency key alone: the seller's key can be the buyer's, and the key of one operation
that of another. Calls carry their requests here, so that what a call returns can be
compared with what its caller submitted.
-/

namespace SiraApi

open Domain Persistence Interleaving Raising

/-! ## What a request submits -/

/-- The offer has the terms of a proposal. -/
structure Proposes (proposal : Proposal) (offer : OfferVersion) : Prop where
  currency : offer.currency = proposal.currency
  lines : offer.lines = proposal.lines
  total : offer.total = proposal.total
  rationale : offer.rationale = proposal.rationale
  changedTerms : offer.changedTerms = proposal.changedTerms
  expiresAt : offer.expiresAt = proposal.expiresAt

/-- The command has the party of a request, the type of its operation and the content that
    its caller submitted. -/
def Carries (rt : Runtime) : Request → PartyCommandData → Prop
  | .publishEvidence caller summary publishedSpanIds _, command =>
    caller.party = some command.party ∧ command.commandType = .publishEvidence ∧
      ∃ evidenceHash, command.payload = [("evidence_hash", .str evidenceHash),
        ("summary", .str summary), ("published_span_ids", .strs publishedSpanIds)]
  | .proposeOffer caller proposal, command =>
    caller.party = some command.party ∧ command.commandType ∈ [.proposeOffer, .counterOffer] ∧
      ∃ offer : OfferVersion, command.payload = offer.toJson ∧ Proposes proposal offer
  | .acceptOffer caller offerHash, command =>
    caller.party = some command.party ∧ command.commandType ∈ [.acceptOffer, .acceptCounter] ∧
      command.payload = [("offer_hash", .str offerHash)]
  | .approveOffer _ offerHash approvalExpiresAt, command =>
    command.party = .system ∧ command.commandType = .approveHandoff ∧
      ∃ (approval : OfferApproval) (approvalHash : String),
        approval.offerHash = offerHash ∧ approval.expiresAt = approvalExpiresAt ∧
        exchangeHash rt (.obj approval.toJson) = .ok approvalHash ∧
        command.payload = [("offer_hash", .str offerHash),
          ("approval_id", .str approval.approvalId), ("approval_hash", .str approvalHash)]
  | _, _ => True

/-- The caller of an operation that issues a command in a case. -/
def Request.commanding : Request → Option Commanding
  | .publishEvidence caller _ _ _ => some caller
  | .proposeOffer caller _ => some caller
  | .acceptOffer caller _ => some caller
  | .approveOffer caller _ _ => some caller
  | _ => none

/-- A transition of the case carries what the request submits, if it is one that submits a
    command. -/
def AppliedIn (rt : Runtime) (db : Db) (request : Request) : Prop :=
  ∀ caller ∈ request.commanding,
    ∃ t ∈ db.transitionsOf caller.routeCapability.buyerOrganizationId caller.caseId,
      Carries rt request t.command

/-- What a replay check finds under the command id of its call is what the call submits. -/
def OwnKey (s : ExchangeService) (call : Request × Stage s.rt) (_ : Int) (store : Store) : Prop :=
  match call with
  | (request, .replay caller route _ _) =>
    ∀ t ∈ store.db.transitionsOf route.buyerOrganizationId route.caseId,
      t.commandId = s.commandIdOf caller → Carries s.rt request t.command
  | _ => True

/-! ## What a transaction applies -/

section Transactions

variable {s : ExchangeService} {caller : Commanding} {route : ExchangeRoute}
  {party : ExchangeParty} {db db' : Db} {compiled : CompiledTransition} {now : Datetime}

theorem proposes_of_buildOffer {caseId : String} {proposal : Proposal} {state : CoordinatorState}
    {latest : Option BilateralOfferVersion} {commandType : CommandType} {offer : OfferVersion}
    (h : s.buildOffer caseId party proposal state latest = .ok (commandType, offer)) :
    Proposes proposal offer := by
  unfold ExchangeService.buildOffer at h
  obtain ⟨step, -, h⟩ := bind_eq_ok.mp h
  obtain ⟨built, hbuilt, h⟩ := bind_eq_ok.mp h
  cases h
  have hdata := (OfferVersion.new_eq_ok hbuilt).1
  constructor
  · rw [hdata]
  · rw [hdata]
  · rw [hdata]
  · rw [hdata]
  · rw [hdata]
  · rw [hdata]

theorem Applies.recorded {caseId : String} {exchange : BilateralExchangeCase}
    {command : PartyCommand s.rt} {prepared : Db}
    (h : Applies s route caseId exchange command db prepared compiled db') :
    ∃ t ∈ db'.transitionsOf route.buyerOrganizationId caseId,
      t.command = command.toPartyCommandData := by
  obtain ⟨commandOrganizationId, happly⟩ := h.applies
  obtain ⟨transition, stateHash, between, record, happlied, hpublish⟩ :=
    applyAndPublish_eq_ok happly
  have htransitions : db'.transitions = between.transitions := by
    rcases publishProjection_eq_ok hpublish with ⟨rfl, -⟩ | ⟨rfl, -⟩
    · rfl
    · rfl
  refine ⟨transition, ?_, happlied.records⟩
  have hkeys : transition.organizationId = route.buyerOrganizationId ∧
      transition.caseId = caseId :=
    ⟨happlied.organization.trans h.organization, happlied.caseId.trans h.id⟩
  unfold Db.transitionsOf
  rw [htransitions, happlied.leaves, List.mem_filter]
  exact ⟨by simp, by simpa using hkeys⟩

/-- The call does what a request submits. -/
def Submits (s : ExchangeService) (request : Request) (caller : Commanding)
    (route : ExchangeRoute) (party : ExchangeParty) (work : Work s.rt) : Prop :=
  ∃ issued now, Starts s issued now request (.replay caller route party work)

theorem Submits.decoded {request : Request} {work : Work s.rt}
    (h : Submits s request caller route party work) :
    request.commanding = some caller ∧
      ∃ issued, Decoded issued caller.toCaller route party := by
  obtain ⟨issued, now, hstarts⟩ := h
  cases hstarts with
  | publishEvidence hdecode => exact ⟨rfl, issued, decodeRoute_eq_ok hdecode⟩
  | proposeOffer hdecode => exact ⟨rfl, issued, decodeRoute_eq_ok hdecode⟩
  | acceptOffer hdecode => exact ⟨rfl, issued, decodeRoute_eq_ok hdecode⟩
  | approveOffer hdecode => exact ⟨rfl, issued, decodeRoute_eq_ok hdecode⟩

theorem Submits.applied {request : Request} {work : Work s.rt}
    (h : Submits s request caller route party work)
    (htransaction : s.transaction caller route party work now db = .ok (compiled, db')) :
    AppliedIn s.rt db' request := by
  obtain ⟨hcommanding, routes, hdecoded⟩ := h.decoded
  intro caller' hcaller'
  obtain rfl := Option.some.inj (hcommanding.symm.trans hcaller')
  rw [hdecoded.token]
  obtain ⟨issued, now, hstarts⟩ := h
  cases hstarts with
  | publishEvidence hdecode hparty hcommand =>
    obtain ⟨exchange, happlies⟩ := evidenceTransaction_eq_ok htransaction
    obtain ⟨hseller, htype, hpayload⟩ := evidenceCommand_eq_ok hcommand
    obtain ⟨t, ht, hrecords⟩ := happlies.recorded
    refine ⟨t, ht, ?_⟩
    rw [hrecords]
    exact ⟨by rw [hdecoded.party, hparty, hseller], htype, hpayload⟩
  | proposeOffer hdecode =>
    obtain ⟨exchange, command, commandType, offer, record, stored, appended, prepared, happlies,
      hbuild, hcommand, -, -⟩ := proposeTransaction_eq_ok htransaction
    obtain ⟨htype, hpayload, hparty⟩ := commandOf_eq_ok hcommand
    obtain ⟨t, ht, hrecords⟩ := happlies.recorded
    refine ⟨t, ht, ?_⟩
    rw [hrecords]
    refine ⟨by rw [hdecoded.party, hparty], ?_, offer, hpayload, proposes_of_buildOffer hbuild⟩
    rw [htype]
    rcases proposalStep_eq_ok (buildOffer_eq_ok hbuild).1 with
      ⟨-, -, hproposes, -⟩ | ⟨record, -, -, -, hcounters, -⟩
    · simp [hproposes]
    · simp [hcounters]
  | acceptOffer hdecode =>
    obtain ⟨exchange, command, latest, appended, prepared, happlies, -, -, -, hcommand, -⟩ :=
      acceptTransaction_eq_ok htransaction
    obtain ⟨htype, hpayload, hparty⟩ := commandOf_eq_ok hcommand
    obtain ⟨t, ht, hrecords⟩ := happlies.recorded
    refine ⟨t, ht, ?_⟩
    rw [hrecords]
    refine ⟨by rw [hdecoded.party, hparty], ?_, hpayload⟩
    rw [htype]
    split
    · simp
    · simp
  | approveOffer hdecode =>
    obtain ⟨exchange, command, approvalHash, record, approved, appended, prepared, happlies, -,
      hhash, hcommand, -⟩ := approveTransaction_eq_ok htransaction
    obtain ⟨htype, hpayload, hparty⟩ := commandOf_eq_ok hcommand
    obtain ⟨t, ht, hrecords⟩ := happlies.recorded
    refine ⟨t, ht, ?_⟩
    rw [hrecords]
    exact ⟨hparty, htype, _, approvalHash, rfl, rfl, hhash, hpayload⟩

end Transactions

/-! ## What holds of every call -/

/-- A call that can still write does what its request submits. Any other call, unless it has
    raised, finds that applied. -/
def Credits (s : ExchangeService) (db : Db) (request : Request) : Stage s.rt → Prop
  | .replay caller route party work => Submits s request caller route party work
  | .append caller route party command => Submits s request caller route party (.evidence command)
  | .work caller route party work => Submits s request caller route party work
  | .raised _ => True
  | _ => AppliedIn s.rt db request

section Calls

variable {s : ExchangeService} {request : Request}

theorem AppliedIn.mono {db db' : Db} (h : AppliedIn s.rt db request) (hdb : Persistence.Consistent s.rt db)
    (hextends : Extends db db') : AppliedIn s.rt db' request := by
  intro caller hcaller
  obtain ⟨t, ht, hcarries⟩ := h caller hcaller
  obtain ⟨hmem, hkeys⟩ := List.mem_filter.mp ht
  obtain ⟨c, hc, hid, horg⟩ := hdb.placed t hmem
  obtain ⟨hkeyorg, hkeycase⟩ : t.organizationId = caller.routeCapability.buyerOrganizationId ∧
      t.caseId = caller.caseId := by simpa using hkeys
  obtain ⟨c', -, -, -, -, hlog⟩ := hextends c hc
  rw [hid, horg, hkeyorg, hkeycase] at hlog
  have hlogged : t.command ∈ db'.log caller.routeCapability.buyerOrganizationId caller.caseId :=
    hlog.subset (List.mem_map_of_mem ht)
  obtain ⟨t', ht', hcommand⟩ := List.mem_map.mp hlogged
  exact ⟨t', ht', hcommand ▸ hcarries⟩

theorem Credits.mono {db db' : Db} {stage : Stage s.rt} (h : Credits s db request stage)
    (hdb : Persistence.Consistent s.rt db) (hextends : Extends db db') : Credits s db' request stage := by
  cases stage with
  | replay caller route party work => exact h
  | append caller route party command => exact h
  | work caller route party work => exact h
  | raised error => exact trivial
  | _ => exact AppliedIn.mono h hdb hextends

theorem appliedIn_of_commanding (db : Db) (h : request.commanding = none) :
    AppliedIn s.rt db request := by
  intro caller hcaller
  rw [h] at hcaller
  cases hcaller

theorem start_credits (time : Int) (store : Store) :
    Credits s store.db request (s.system.start request time store) := by
  obtain ⟨stage, hstage, hstarts | ⟨error, rfl⟩⟩ := start_cases (s := s) request time store
  · rw [hstage]
    cases hstarts with
    | createCase hparty hbinding => exact appliedIn_of_commanding _ rfl
    | viewCase hdecode => exact appliedIn_of_commanding _ rfl
    | publishEvidence hdecode hparty hcommand =>
      exact ⟨_, _, .publishEvidence hdecode hparty hcommand⟩
    | proposeOffer hdecode => exact ⟨_, _, .proposeOffer hdecode⟩
    | acceptOffer hdecode => exact ⟨_, _, .acceptOffer hdecode⟩
    | approveOffer hdecode hparty => exact ⟨_, _, .approveOffer hdecode hparty⟩
    | createHandoff hdecode hparty => exact appliedIn_of_commanding _ rfl
    | openHandoff hdecode hparty => exact appliedIn_of_commanding _ rfl
  · rw [hstage]
    exact trivial

theorem appliedIn_of_replayed {caller : Commanding} {route : ExchangeRoute}
    {party : ExchangeParty} {work : Work s.rt} {store : Store} {time : Int}
    (h : Submits s request caller route party work)
    (hown : OwnKey s (request, .replay caller route party work) time store)
    (hreplayed : s.replayed caller route store.db = .ok true) :
    AppliedIn s.rt store.db request := by
  obtain ⟨hcommanding, routes, hdecoded⟩ := h.decoded
  intro caller' hcaller'
  obtain rfl := Option.some.inj (hcommanding.symm.trans hcaller')
  rw [hdecoded.token, ← hdecoded.caseId]
  unfold ExchangeService.replayed at hreplayed
  obtain ⟨-, -, hfound⟩ := bind_eq_ok.mp hreplayed
  obtain ⟨t, ht, hid⟩ := List.any_eq_true.mp (pure_eq_ok.mp hfound)
  exact ⟨t, ht, hown t ht (of_decide_eq_true hid)⟩

theorem finishWith_credits {ending : Ending} {store : Store} {db : Db}
    (h : AppliedIn s.rt db request) :
    Credits s db request (s.finishWith ending store db).1 := by
  unfold ExchangeService.finishWith ExchangeService.finish
  cases ending with
  | «show» projection => exact h
  | issue route projection =>
    dsimp only
    split
    · exact h
    · exact trivial

theorem next_credits {stage : Stage s.rt} {time : Int} {store : Store}
    (h : Credits s store.db request stage) (hdb : Persistence.Consistent s.rt store.db)
    (hextends : Extends store.db (s.next stage time store).2.db)
    (hown : OwnKey s (request, stage) time store) :
    Credits s (s.next stage time store).2.db request (s.next stage time store).1 := by
  revert hextends
  cases stage with
  | createCase opening binding startedAt =>
    unfold ExchangeService.next
    dsimp only
    split
    · exact fun _ => trivial
    · split
      · exact fun hextends => AppliedIn.mono h hdb hextends
      · exact fun hextends => finishWith_credits (AppliedIn.mono h hdb hextends)
  | view route party =>
    unfold ExchangeService.next
    dsimp only
    split
    · exact fun _ => trivial
    · exact fun _ => h
  | read route party =>
    unfold ExchangeService.next
    dsimp only
    split
    · exact fun _ => trivial
    · exact fun _ => h
  | replay caller route party work =>
    unfold ExchangeService.next
    dsimp only
    split
    · exact fun _ => trivial
    · next hreplayed => exact fun _ => appliedIn_of_replayed h hown hreplayed
    · exact fun _ => h
    · exact fun _ => h
  | append caller route party command =>
    unfold ExchangeService.next
    dsimp only
    split
    · exact fun _ => trivial
    · exact fun _ => h
  | work caller route party work =>
    unfold ExchangeService.next
    dsimp only
    split
    · exact fun _ => trivial
    · next compiled db' htransaction => exact fun _ => Submits.applied h htransaction
  | publish organizationId shown ending =>
    unfold ExchangeService.next
    dsimp only
    split
    · exact fun _ => trivial
    · exact fun hextends => finishWith_credits (AppliedIn.mono h hdb hextends)
  | createHandoff caller route expectedVersion offerHash startedAt =>
    unfold ExchangeService.next
    dsimp only
    split
    · exact fun _ => trivial
    · exact fun hextends => AppliedIn.mono h hdb hextends
  | openHandoff caller route handoffId handoffHash =>
    unfold ExchangeService.next
    dsimp only
    split
    · exact fun _ => trivial
    · exact fun hextends => AppliedIn.mono h hdb hextends
  | returned reply => exact fun _ => h
  | raised error => exact fun _ => trivial

/-- The tables stay consistent, and every call does, or finds applied, what its request
    submits. -/
theorem credits_outline (s : ExchangeService) :
    System.Outline s.system.labelled (OwnKey s) (fun store => Persistence.Consistent s.rt store.db)
      (fun store call => call.2.Waits store.db ∧ Credits s store.db call.1 call.2) where
  start := fun store request time _ => ⟨start_waits request time store, start_credits time store⟩
  store := fun store call time hstore hcall _ =>
    ((step_next call.2 time store).consistent hstore hcall.1).1
  own := by
    intro store call time hstore hcall hown
    obtain ⟨-, hextends, hwaits⟩ := (step_next call.2 time store).consistent hstore hcall.1
    exact ⟨hwaits, next_credits hcall.2 hstore hextends hown⟩
  other := by
    intro store call other time hstore hcall hother _
    have hextends := ((step_next call.2 time store).consistent hstore hcall.1).2.1
    exact ⟨hother.1.mono hextends, hother.2.mono hstore hextends⟩

end Calls

theorem labelled_store (s : ExchangeService) (events : List (Event Request Int)) :
    (s.system.labelled.run ⟨{}, []⟩ events).store = (s.system.run ⟨{}, []⟩ events).store := by
  have hforget := @System.forget_run _ _ _ _ s.system ⟨{}, []⟩ events
  exact congrArg World.store hforget

/-- In a run whose replay checks find only transitions of their own calls, what an operation
    submits is applied when it returns. -/
theorem success_means_applied (s : ExchangeService) (events : List (Event Request Int))
    (hown : s.system.labelled.Along (System.StepsMeet (OwnKey s)) ⟨{}, []⟩ events)
    (request : Request) (reply : Reply)
    (hreturned : (request, .returned reply) ∈ (s.system.labelled.run ⟨{}, []⟩ events).calls) :
    AppliedIn s.rt (s.system.run ⟨{}, []⟩ events).store.db request := by
  have hcalls : ∀ call ∈ ([] : List (Request × Stage s.rt)),
      call.2.Waits {} ∧ Credits s {} call.1 call.2 := by simp
  have hrun := (credits_outline s).run (w := ⟨{}, []⟩) consistent_empty hcalls hown
  rw [← labelled_store]
  exact (hrun.2 _ hreturned).2

/-! ## One key for two operations -/

namespace Sample

/-- The arguments of an operation on the sample case, by a party under a key. -/
def commanding (party : ExchangeParty) (idempotencyKey : String) : Commanding where
  organizationId := if party = .buyer then "org-buyer" else "org-seller"
  actorId := if party = .buyer then "buyer" else "seller"
  party := some party
  caseId := service.caseIdOf opening "org-seller"
  routeCapability := service.routeOf opening
    ⟨"product", "org-seller", "Seller", "https://seller.example"⟩ ⟨1893456000000000, true⟩
  guestIdentity := false
  idempotencyKey := idempotencyKey
  expectedVersion := 2

def proposal : Proposal where
  currency := "USD"
  lines := [⟨"seat", "Seat", 2, 5000⟩]
  total := 10000
  rationale := "Two seats."
  changedTerms := []
  expiresAt := ⟨1893456000000000, true⟩

/-- The buyer proposes under the key of the opening of the case. -/
def collided : List (Event Request Int) :=
  unbroken ++ [.start (.proposeOffer (commanding .buyer "open") proposal) 1, .advance 1 1,
    .advance 1 1, .advance 1 1]

/-- The seller publishes evidence under a key of its own. -/
def published : List (Event Request Int) :=
  unbroken ++ [.start (.publishEvidence (commanding .seller "evidence") "Single sign-on." ["span"]
    [⟨"span", "source", "sha256:span"⟩]) 1, .advance 1 1, .advance 1 1, .advance 1 1, .advance 1 1]

end Sample

/-- The call that proposes has returned. -/
def proposed {rt : Runtime} : Request × Stage rt → Bool
  | (.proposeOffer .., .returned _) => true
  | _ => false

/-- The call that publishes evidence has returned. -/
def evidencePublished {rt : Runtime} : Request × Stage rt → Bool
  | (.publishEvidence .., .returned _) => true
  | _ => false

/-- No transition of the case has the command id of the call. -/
def FreshKey (s : ExchangeService) (call : Request × Stage s.rt) (_ : Int) (store : Store) : Prop :=
  match call with
  | (_, .replay caller route _ _) =>
    ∀ t ∈ store.db.transitionsOf route.buyerOrganizationId route.caseId,
      t.commandId ≠ s.commandIdOf caller
  | _ => True

instance (s : ExchangeService) : ∀ (call : Request × Stage s.rt) (time : Int) (store : Store),
    Decidable (FreshKey s call time store)
  | (_, .replay ..), _, store => inferInstanceAs (Decidable (∀ t ∈ store.db.transitionsOf _ _, _))
  | (_, .createCase ..), _, _ | (_, .view ..), _, _ | (_, .read ..), _, _ | (_, .append ..), _, _
  | (_, .work ..), _, _ | (_, .publish ..), _, _ | (_, .createHandoff ..), _, _
  | (_, .openHandoff ..), _, _ | (_, .returned _), _, _ | (_, .raised _), _, _ => .isTrue trivial

theorem ownKey_of_freshKey (s : ExchangeService) (call : Request × Stage s.rt) (time : Int)
    (store : Store) (h : FreshKey s call time store) : OwnKey s call time store := by
  obtain ⟨request, stage⟩ := call
  cases stage with
  | replay caller route party work => exact fun t ht hid => absurd hid (h t ht)
  | _ => exact trivial

theorem sample_commands :
    ((Sample.service.system.labelled.run ⟨{}, []⟩ Sample.collided).calls.any proposed = true ∧
      ∀ t ∈ (Sample.service.system.labelled.run ⟨{}, []⟩ Sample.collided).store.db.transitions,
        t.command.commandType = .releaseRequirement) ∧
    Sample.service.system.labelled.Along (System.StepsMeet (FreshKey Sample.service)) ⟨{}, []⟩
      Sample.published ∧
    (Sample.service.system.labelled.run ⟨{}, []⟩ Sample.published).calls.any evidencePublished =
      true := by
  unfold Sample.collided Sample.published Sample.commanding
  rw [Sample.service_eq]
  decide +kernel

/-- The buyer proposes under the key with which it opened the case. The call returns, and
    nothing was proposed. -/
theorem reused_key_loses_proposal :
    ∃ request reply, (request, .returned reply) ∈
        (Sample.service.system.labelled.run ⟨{}, []⟩ Sample.collided).calls ∧
      ¬ AppliedIn Sample.service.rt
        (Sample.service.system.run ⟨{}, []⟩ Sample.collided).store.db request := by
  obtain ⟨⟨hcall, htransitions⟩, -⟩ := sample_commands
  rw [labelled_store] at htransitions
  obtain ⟨⟨request, stage⟩, hmem, hproposed⟩ := List.any_eq_true.mp hcall
  unfold proposed at hproposed
  split at hproposed
  · next caller proposal reply heq =>
    cases heq
    refine ⟨_, reply, hmem, fun happlied => ?_⟩
    obtain ⟨t, ht, -, htype, -⟩ := happlied caller rfl
    rw [htransitions t (List.mem_filter.mp ht).1] at htype
    simp at htype
  · cases hproposed

/-- Under a key of its own the evidence of the seller is applied when its call returns. -/
theorem success_means_applied_sample :
    ∃ caller summary publishedSpanIds spans,
      AppliedIn Sample.service.rt
        (Sample.service.system.run ⟨{}, []⟩ Sample.published).store.db
        (.publishEvidence caller summary publishedSpanIds spans) := by
  obtain ⟨-, hfresh, hcall⟩ := sample_commands
  have hown := System.Along.imp (System.StepsMeet.imp (ownKey_of_freshKey Sample.service)) hfresh
  obtain ⟨⟨request, stage⟩, hmem, hpublished⟩ := List.any_eq_true.mp hcall
  unfold evidencePublished at hpublished
  split at hpublished
  · next caller summary publishedSpanIds spans reply heq =>
    cases heq
    exact ⟨caller, summary, publishedSpanIds, spans,
      success_means_applied Sample.service Sample.published hown _ reply hmem⟩
  · cases hpublished

end SiraApi
