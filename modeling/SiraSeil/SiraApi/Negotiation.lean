-- SUMMARY: The negotiation of one case as an abstract protocol: its steps, what stands in each state, and that agreed offers are never added to.
import SiraSeil.Persistence.CommandLog

/-!
# Negotiations

What the operations of the exchange do to one case, without tenants, routes and
idempotency: the state, the offers with their statuses, the approvals, the commands
applied so far and the current offer. The service is shown to take only these steps.
-/

namespace SiraApi

open Domain Persistence

structure Negotiation where
  state : ExchangeState
  offers : List BilateralOfferVersion
  approvals : List BilateralOfferApproval
  commands : List PartyCommandData
  currentOffer : Option Fields

/-- The first offer of a negotiation, from the buyer to the seller. -/
structure First (offer : OfferVersion) : Prop where
  version : offer.version = 1
  predecessor : offer.predecessorHash = none
  proposer : offer.proposer = .buyer
  recipient : offer.recipient = .seller

/-- An offer answers another one: it binds its hash, and the parties change places. -/
structure Answers (previous current : OfferVersion) : Prop where
  version : current.version = previous.version + 1
  predecessor : current.predecessorHash = some previous.offerHash
  proposer : current.proposer = previous.recipient
  recipient : current.recipient = previous.proposer

theorem Answers.version_two {previous current : OfferVersion} (hfirst : First previous)
    (h : Answers previous current) : current.version = 2 := by
  rw [h.version, hfirst.version]

/-- The commands that accept an offer. -/
def acceptances (commands : List PartyCommandData) : List PartyCommandData :=
  commands.filter (fun c => c.commandType ∈ [.acceptOffer, .acceptCounter])

/-- A command accepts an offer for its recipient. -/
structure Accepts (command : PartyCommandData) (offer : OfferVersion) : Prop where
  party : command.party = offer.recipient
  payload : command.payload = [("offer_hash", .str offer.offerHash)]

namespace Negotiation

/-- One step of a negotiation. -/
inductive Step (n : Negotiation) : Negotiation → Prop
  | release {command : PartyCommandData} (hstate : n.state = .created)
      (htype : command.commandType = .releaseRequirement) :
    n.Step { n with state := .requirementReleased, commands := n.commands ++ [command] }
  | evidence {command : PartyCommandData} (hstate : n.state = .requirementReleased)
      (htype : command.commandType = .publishEvidence) :
    n.Step { n with state := .evidenceReleased, commands := n.commands ++ [command] }
  | propose {command : PartyCommandData} {record : BilateralOfferVersion}
      (hstate : n.state = .evidenceReleased) (htype : command.commandType = .proposeOffer)
      (hfirst : First record.terms) (hpending : record.approvalStatus = .pending) :
    n.Step { n with
      state := .offered
      offers := n.offers ++ [record]
      commands := n.commands ++ [command]
      currentOffer := some record.terms.toJson }
  | counter {command : PartyCommandData} {latest record : BilateralOfferVersion}
      (hstate : n.state = .offered) (htype : command.commandType = .counterOffer)
      (hlatest : Table.latest (·.terms.version) n.offers = some latest)
      (hanswers : Answers latest.terms record.terms)
      (hpending : record.approvalStatus = .pending) :
    n.Step { n with
      state := .countered
      offers := Table.update (·.id) latest.id (·.withStatus .superseded) n.offers ++ [record]
      commands := n.commands ++ [command]
      currentOffer := some record.terms.toJson }
  | accept {command : PartyCommandData} {latest : BilateralOfferVersion}
      (hstate : n.state = .offered ∧ command.commandType = .acceptOffer ∨
        n.state = .countered ∧ command.commandType = .acceptCounter)
      (hlatest : Table.latest (·.terms.version) n.offers = some latest)
      (haccepts : Accepts command latest.terms) :
    n.Step { n with state := .agreedPendingApproval, commands := n.commands ++ [command] }
  | approve {command : PartyCommandData} {latest : BilateralOfferVersion}
      {record : BilateralOfferApproval} (hstate : n.state = .agreedPendingApproval)
      (htype : command.commandType = .approveHandoff)
      (hlatest : Table.latest (·.terms.version) n.offers = some latest)
      (hhash : record.offerHash = latest.terms.offerHash) :
    n.Step { n with
      state := .approvedForHandoff
      offers := Table.update (·.id) latest.id (·.withStatus .approved) n.offers
      approvals := n.approvals ++ [record]
      commands := n.commands ++ [command] }

/-! ## What stands in each state -/

/-- The offers of a negotiation, with the latest one: there is a first offer, or a first
    offer that was superseded and an answer to it. -/
inductive Chained : List BilateralOfferVersion → BilateralOfferVersion → Prop
  | first {o : BilateralOfferVersion} (hfirst : First o.terms) : Chained [o] o
  | answered {o o' : BilateralOfferVersion} (hfirst : First o.terms)
      (hsuperseded : o.approvalStatus = .superseded) (hanswers : Answers o.terms o'.terms) :
    Chained [o, o'] o'

/-- The latest offer was accepted, once and by its recipient. -/
def AcceptedLatest (n : Negotiation) (latest : BilateralOfferVersion) : Prop :=
  ∃ command, acceptances n.commands = [command] ∧ Accepts command latest.terms

/-- What has been offered, accepted and approved in a state. -/
def Standing (n : Negotiation) : Prop :=
  match n.state with
  | .created | .requirementReleased | .evidenceReleased =>
    n.offers = [] ∧ n.approvals = [] ∧ acceptances n.commands = [] ∧ n.currentOffer = none
  | .offered =>
    ∃ o, n.offers = [o] ∧ First o.terms ∧ n.approvals = [] ∧ acceptances n.commands = [] ∧
      n.currentOffer = some o.terms.toJson
  | .countered =>
    ∃ o o', n.offers = [o, o'] ∧ Chained n.offers o' ∧ n.approvals = [] ∧
      acceptances n.commands = [] ∧ n.currentOffer = some o'.terms.toJson
  | .agreedPendingApproval =>
    ∃ latest, Chained n.offers latest ∧ n.AcceptedLatest latest ∧ n.approvals = [] ∧
      n.currentOffer = some latest.terms.toJson
  | .approvedForHandoff =>
    ∃ latest, Chained n.offers latest ∧ n.AcceptedLatest latest ∧
      latest.approvalStatus = .approved ∧
      (∃ approval, n.approvals = [approval] ∧ approval.offerHash = latest.terms.offerHash) ∧
      n.currentOffer = some latest.terms.toJson
  | .rejected | .expired => False

/-- The parties have agreed. -/
def Settled (n : Negotiation) : Prop :=
  n.state = .agreedPendingApproval ∨ n.state = .approvedForHandoff

theorem acceptances_concat (commands : List PartyCommandData) (command : PartyCommandData) :
    acceptances (commands ++ [command]) =
      if command.commandType ∈ [.acceptOffer, .acceptCounter] then
        acceptances commands ++ [command]
      else acceptances commands := by
  unfold acceptances
  split
  · next h => simpa [List.filter_append] using h
  · next h => simpa [List.filter_append] using h

variable {offers : List BilateralOfferVersion} {last : BilateralOfferVersion}

theorem Chained.latest {o : BilateralOfferVersion}
    (h : Chained offers o) : Table.latest (·.terms.version) offers = some o := by
  cases h with
  | first hfirst => exact Table.latest_singleton _ o
  | @answered previous _ hfirst hsuperseded hanswers =>
    have hbefore : ∀ b ∈ [previous], b.terms.version < o.terms.version := by
      intro b hb
      rw [List.mem_singleton.mp hb, hfirst.version, hanswers.version_two hfirst]
      exact Nat.one_lt_two
    exact Table.latest_append hbefore

/-! ## Steps keep what stands -/

variable {n n' : Negotiation}

theorem Chained.withStatus (h : Chained offers last) (hids : Table.Keyed (·.id) offers)
    (status : OfferApprovalStatus) :
    Chained (Table.update (·.id) last.id (·.withStatus status) offers)
      (last.withStatus status) := by
  cases h with
  | first hfirst =>
    rw [Table.update_cons_self]
    exact .first hfirst
  | @answered o _ hfirst hsuperseded hanswers =>
    have hne : o.id ≠ last.id := by
      intro heq
      simp [Table.Keyed, heq] at hids
    have hupdate : Table.update (·.id) last.id (·.withStatus status) [o, last] =
        [o, last.withStatus status] := by simp [Table.update, hne]
    rw [hupdate]
    exact .answered hfirst hsuperseded hanswers

theorem Standing.step (h : n.Standing) (hids : Table.Keyed (·.id) n.offers) (hstep : n.Step n') :
    n'.Standing := by
  cases hstep with
  | release hstate htype =>
    unfold Standing at h
    simp only [hstate] at h
    obtain ⟨hoffers, happrovals, hnone, hcurrent⟩ := h
    refine ⟨hoffers, happrovals, ?_, hcurrent⟩
    rw [acceptances_concat, htype, if_neg (by decide)]
    exact hnone
  | evidence hstate htype =>
    unfold Standing at h
    simp only [hstate] at h
    obtain ⟨hoffers, happrovals, hnone, hcurrent⟩ := h
    refine ⟨hoffers, happrovals, ?_, hcurrent⟩
    rw [acceptances_concat, htype, if_neg (by decide)]
    exact hnone
  | @propose command record hstate htype hfirst hpending =>
    unfold Standing at h
    simp only [hstate] at h
    obtain ⟨hoffers, happrovals, hnone, -⟩ := h
    refine ⟨record, ?_, hfirst, happrovals, ?_, rfl⟩
    · rw [hoffers, List.nil_append]
    · rw [acceptances_concat, htype, if_neg (by decide)]
      exact hnone
  | @counter command latest record hstate htype hlatest hanswers hpending =>
    unfold Standing at h
    simp only [hstate] at h
    obtain ⟨o, hoffers, hfirst, happrovals, hnone, -⟩ := h
    rw [hoffers, Table.latest_singleton] at hlatest
    obtain rfl := Option.some.inj hlatest
    have hchain : Table.update (·.id) o.id (·.withStatus .superseded) n.offers ++ [record] =
        [o.withStatus .superseded, record] := by
      rw [hoffers, Table.update_cons_self]
      rfl
    refine ⟨o.withStatus .superseded, record, hchain, ?_, happrovals, ?_, rfl⟩
    · show Chained (_ ++ [record]) record
      rw [hchain]
      exact .answered hfirst rfl hanswers
    · rw [acceptances_concat, htype, if_neg (by decide)]
      exact hnone
  | @accept command latest hstate hlatest haccepts =>
    have hlast : Chained n.offers latest ∧ n.approvals = [] ∧ acceptances n.commands = [] ∧
        n.currentOffer = some latest.terms.toJson := by
      unfold Standing at h
      rcases hstate with ⟨hstate, -⟩ | ⟨hstate, -⟩
      · simp only [hstate] at h
        obtain ⟨o, hoffers, hfirst, happrovals, hnone, hcurrent⟩ := h
        rw [hoffers, Table.latest_singleton] at hlatest
        obtain rfl := Option.some.inj hlatest
        exact ⟨hoffers ▸ .first hfirst, happrovals, hnone, hcurrent⟩
      · simp only [hstate] at h
        obtain ⟨o, o', hoffers, hchained, happrovals, hnone, hcurrent⟩ := h
        obtain rfl := Option.some.inj (hchained.latest.symm.trans hlatest)
        exact ⟨hchained, happrovals, hnone, hcurrent⟩
    have haccept : command.commandType ∈ [CommandType.acceptOffer, .acceptCounter] := by
      rcases hstate with ⟨-, htype⟩ | ⟨-, htype⟩
      · rw [htype]
        decide
      · rw [htype]
        decide
    obtain ⟨hchained, happrovals, hnone, hcurrent⟩ := hlast
    refine ⟨latest, hchained, ⟨command, ?_, haccepts⟩, happrovals, hcurrent⟩
    rw [acceptances_concat, if_pos haccept, hnone, List.nil_append]
  | @approve command latest record hstate htype hlatest hhash =>
    unfold Standing at h
    simp only [hstate] at h
    obtain ⟨last, hchained, ⟨accepted, hone, haccepts⟩, happrovals, hcurrent⟩ := h
    obtain rfl := Option.some.inj (hchained.latest.symm.trans hlatest)
    refine ⟨last.withStatus .approved, ?_, ⟨accepted, ?_, haccepts⟩, rfl, ⟨record, ?_, hhash⟩,
      hcurrent⟩
    · exact hchained.withStatus hids .approved
    · rw [acceptances_concat, htype, if_neg (by decide)]
      exact hone
    · rw [happrovals, List.nil_append]

/-! ## What standing says of the offers -/

/-- Offers in one chain: their versions count from one, each answers the one before it,
    and the first one has no predecessor. -/
structure OfferChain (offers : List OfferVersion) : Prop where
  versions : offers.map (·.version) = List.range' 1 offers.length
  first : ∀ o ∈ offers.head?, First o
  answers : offers.IsChain Answers

/-- The last offer was accepted by its recipient and approved, and all the others made way
    for it. -/
def Concluded (n : Negotiation) : Prop :=
  ∃ earlier last approval command, n.offers = earlier ++ [last] ∧
    last.approvalStatus = .approved ∧ (∀ o ∈ earlier, o.approvalStatus = .superseded) ∧
    n.approvals = [approval] ∧ approval.offerHash = last.terms.offerHash ∧
    acceptances n.commands = [command] ∧ Accepts command last.terms

theorem Chained.offerChain (h : Chained offers last) : OfferChain (offers.map (·.terms)) := by
  cases h with
  | first hfirst =>
    constructor
    · exact congrArg (fun version => [version]) hfirst.version
    · intro o ho
      exact Option.some.inj ho ▸ hfirst
    · exact .singleton _
  | @answered o last hfirst hsuperseded hanswers =>
    constructor
    · show [o.terms.version, last.terms.version] = [1, 2]
      rw [hfirst.version, hanswers.version_two hfirst]
    · intro o' ho
      exact Option.some.inj ho ▸ hfirst
    · exact .cons_cons hanswers (.singleton _)

theorem Chained.getLast (h : Chained offers last) : ∃ earlier, offers = earlier ++ [last] ∧
      ∀ o ∈ earlier, o.approvalStatus = .superseded := by
  cases h with
  | first hfirst => exact ⟨[], rfl, by simp⟩
  | @answered o last hfirst hsuperseded hanswers =>
    refine ⟨[o], rfl, ?_⟩
    intro o' ho
    rw [List.mem_singleton.mp ho]
    exact hsuperseded

theorem Standing.chained (h : n.Standing) :
    (n.offers = [] ∧ n.currentOffer = none) ∨
      ∃ last, Chained n.offers last ∧ n.currentOffer = some last.terms.toJson := by
  unfold Standing at h
  split at h
  · exact .inl ⟨h.1, h.2.2.2⟩
  · exact .inl ⟨h.1, h.2.2.2⟩
  · exact .inl ⟨h.1, h.2.2.2⟩
  · obtain ⟨o, hoffers, hfirst, -, -, hcurrent⟩ := h
    exact .inr ⟨o, hoffers ▸ .first hfirst, hcurrent⟩
  · obtain ⟨o, o', -, hchained, -, -, hcurrent⟩ := h
    exact .inr ⟨o', hchained, hcurrent⟩
  · obtain ⟨last, hchained, -, -, hcurrent⟩ := h
    exact .inr ⟨last, hchained, hcurrent⟩
  · obtain ⟨last, hchained, -, -, -, hcurrent⟩ := h
    exact .inr ⟨last, hchained, hcurrent⟩
  · cases h
  · cases h

theorem Standing.offerChain (h : n.Standing) : OfferChain (n.offers.map (·.terms)) := by
  rcases h.chained with ⟨hnone, -⟩ | ⟨last, hchained, -⟩
  · rw [hnone]
    exact ⟨rfl, by simp, .nil⟩
  · exact hchained.offerChain

theorem Standing.currentOffer (h : n.Standing) :
    n.currentOffer = n.offers.getLast?.map (·.terms.toJson) := by
  rcases h.chained with ⟨hnone, hcurrent⟩ | ⟨last, hchained, hcurrent⟩
  · rw [hcurrent, hnone]
    rfl
  · obtain ⟨earlier, hoffers, -⟩ := hchained.getLast
    rw [hcurrent, hoffers, List.getLast?_concat]
    rfl

theorem Standing.concluded (h : n.Standing) (hstate : n.state = .approvedForHandoff) :
    n.Concluded := by
  unfold Standing at h
  simp only [hstate] at h
  obtain ⟨last, hchained, ⟨command, hone, haccepts⟩, hstatus, ⟨approval, happrovals, hhash⟩, -⟩ := h
  obtain ⟨earlier, hoffers, hsuperseded⟩ := hchained.getLast
  exact ⟨earlier, last, approval, command, hoffers, hstatus, hsuperseded, happrovals, hhash, hone,
    haccepts⟩

theorem Settled.step (h : n.Settled) (hstep : n.Step n') :
    n'.Settled ∧ n'.offers.map (·.terms) = n.offers.map (·.terms) := by
  cases hstep with
  | release hstate => rcases h with h | h <;> rw [hstate] at h <;> cases h
  | evidence hstate => rcases h with h | h <;> rw [hstate] at h <;> cases h
  | propose hstate => rcases h with h | h <;> rw [hstate] at h <;> cases h
  | counter hstate => rcases h with h | h <;> rw [hstate] at h <;> cases h
  | accept hstate =>
    rcases hstate with ⟨hstate, -⟩ | ⟨hstate, -⟩ <;>
      rcases h with h | h <;> rw [hstate] at h <;> cases h
  | approve hstate => exact ⟨.inr rfl, Table.map_update (fun _ => rfl)⟩

end Negotiation

end SiraApi
