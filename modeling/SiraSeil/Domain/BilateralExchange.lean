-- SUMMARY: The two-party exchange compiler: owned commands, the coordinator state they advance, the projections they leave, and which states are final.
import SiraSeil.Domain.Hashing
import SiraSeil.Library.Raising

/-!
# The exchange compiler

`domain/bilateral_exchange.py`. A command of a party is compiled against the
coordinator state it expects; the result is the next state and one projection
for each party. The table of transitions has no way out of an approved, rejected
or expired exchange, but the two commands of the system that end an exchange do
not consult it.
-/

namespace Domain

open Raising

/-- What an operation of the exchange raises. -/
inductive ExchangeError
  | exchangeConflict (message : String)
  | contractViolation (message : String)
  | validation (message : String)
  | canonicalization
  | domain (error : PyError)
  | persistenceConflict (message : String)
  | recordNotFound (message : String)
  | integrity (key : String)
  | api (code message : String) (statusCode : Nat)
  deriving DecidableEq

abbrev Exchanged (α : Type) := Except ExchangeError α

/-! ## Parties, states and commands -/

inductive ExchangeParty
  | buyer | seller | system
  deriving DecidableEq, Repr

def ExchangeParty.value : ExchangeParty → String
  | buyer => "BUYER"
  | seller => "SELLER"
  | system => "SYSTEM"

inductive ExchangeState
  | created | requirementReleased | evidenceReleased | offered | countered
  | agreedPendingApproval | approvedForHandoff | rejected | expired
  deriving DecidableEq, Repr

def ExchangeState.value : ExchangeState → String
  | created => "CREATED"
  | requirementReleased => "REQUIREMENT_RELEASED"
  | evidenceReleased => "EVIDENCE_RELEASED"
  | offered => "OFFERED"
  | countered => "COUNTERED"
  | agreedPendingApproval => "AGREED_PENDING_APPROVAL"
  | approvedForHandoff => "APPROVED_FOR_HANDOFF"
  | rejected => "REJECTED"
  | expired => "EXPIRED"

inductive CommandType
  | releaseRequirement | publishEvidence | proposeOffer | counterOffer | acceptOffer
  | acceptCounter | approveHandoff | reject | expire
  deriving DecidableEq, Repr

/-- `_COMMAND_OWNERS` -/
def CommandType.owner : CommandType → ExchangeParty
  | releaseRequirement | proposeOffer | acceptCounter => .buyer
  | publishEvidence | counterOffer | acceptOffer => .seller
  | approveHandoff | reject | expire => .system

/-- `_TRANSITIONS` -/
def ExchangeState.transition? : ExchangeState → CommandType → Option ExchangeState
  | created, .releaseRequirement => some requirementReleased
  | requirementReleased, .publishEvidence => some evidenceReleased
  | evidenceReleased, .proposeOffer => some offered
  | offered, .counterOffer => some countered
  | offered, .acceptOffer => some agreedPendingApproval
  | countered, .acceptCounter => some agreedPendingApproval
  | agreedPendingApproval, .approveHandoff => some approvedForHandoff
  | _, _ => none

/-- A JSON object. -/
abbrev Fields : Type := List (String × Value)

/-! ## Private fields -/

/-- `part in text` -/
def hasPart (text part : String) : Bool :=
  text.toList.tails.any (fun rest => part.toList.isPrefixOf rest)

/-- `_PRIVATE_PARTS` -/
def privateParts : List String :=
  ["buyer_private", "seller_private", "hidden_budget", "reservation_value", "seller_floor",
    "private_notes", "private_source"]

mutual
/-- Some field of the tree is named in a way the predicate refuses. -/
def Value.names (refused : String → Bool) : Value → Bool
  | .atom _ => false
  | .seq xs => Value.namesSeq refused xs
  | .obj fields => Value.namesFields refused fields

def Value.namesSeq (refused : String → Bool) : List Value → Bool
  | [] => false
  | x :: xs => x.names refused || Value.namesSeq refused xs

def Value.namesFields (refused : String → Bool) : List (String × Value) → Bool
  | [] => false
  | (name, v) :: fields =>
    refused name || v.names refused || Value.namesFields refused fields
end

/-- `_reject_private_fields` -/
def rejectPrivateFields (rt : Runtime) (payload : Fields) : Exchanged Unit :=
  if Value.namesFields (fun name => privateParts.any (hasPart (rt.casefold name))) payload then
    .error (.validation "party command contains a private-plane field")
  else .ok ()

/-! ## Party commands -/

/-- The condition holds, or the model is refused. -/
def ensure (condition : Bool) (message : String) : Exchanged Unit :=
  if condition then .ok () else .error (.validation message)

/-- `Field(min_length=1, max_length=bound)` -/
def boundedText (text : String) (bound : Nat) : Bool :=
  decide (1 ≤ text.length) && decide (text.length ≤ bound)

structure PartyCommandData where
  id : String
  caseId : String
  party : ExchangeParty
  actorId : String
  commandType : CommandType
  expectedVersion : Nat
  idempotencyKey : String
  payload : Fields

def PartyCommandData.validate (rt : Runtime) (command : PartyCommandData) : Exchanged Unit := do
  ensure (boundedText command.id 64) "id"
  ensure (boundedText command.caseId 64) "case_id"
  ensure (boundedText command.actorId 100) "actor_id"
  ensure (decide (1 ≤ command.expectedVersion)) "expected_version"
  ensure (boundedText command.idempotencyKey 128) "idempotency_key"
  ensure (decide (command.party = command.commandType.owner))
    "party does not own this command type"
  rejectPrivateFields rt command.payload

/-- A command that passed its validation. -/
structure PartyCommand (rt : Runtime) extends PartyCommandData where
  admitted : toPartyCommandData.validate rt = .ok ()

def PartyCommand.new (rt : Runtime) (data : PartyCommandData) : Exchanged (PartyCommand rt) :=
  match h : data.validate rt with
  | .ok () => .ok ⟨data, h⟩
  | .error e => .error e

theorem PartyCommand.new_eq_ok {rt : Runtime} {data : PartyCommandData} {command : PartyCommand rt}
    (h : PartyCommand.new rt data = .ok command) : command.toPartyCommandData = data := by
  unfold PartyCommand.new at h
  split at h
  · cases h
    rfl
  · cases h

theorem ensure_eq_ok {condition : Bool} {message : String} :
    ensure condition message = .ok () ↔ condition = true := by
  unfold ensure
  split <;> simp_all

theorem PartyCommand.party_eq_owner {rt : Runtime} (command : PartyCommand rt) :
    command.party = command.commandType.owner := by
  have h := command.admitted
  unfold PartyCommandData.validate at h
  simp only [check_bind_eq_ok, ensure_eq_ok, decide_eq_true_eq] at h
  exact h.2.2.2.2.2.1

/-! ## The coordinator -/

structure CoordinatorState where
  caseId : String
  state : ExchangeState := .created
  version : Nat := 1
  requirement : Option Fields := none
  evidence : Option Fields := none
  currentOffer : Option Fields := none
  approval : Option Fields := none
  lastCommandId : Option String := none

/-- `model_dump(mode="json")` -/
def CoordinatorState.toJson (state : CoordinatorState) : Value :=
  .obj [("case_id", .str state.caseId), ("state", .str state.state.value),
    ("version", .nat state.version), ("requirement", .opt .obj state.requirement),
    ("evidence", .opt .obj state.evidence), ("current_offer", .opt .obj state.currentOffer),
    ("approval", .opt .obj state.approval), ("last_command_id", .opt .str state.lastCommandId)]

structure PartyProjection where
  caseId : String
  party : ExchangeParty
  state : ExchangeState
  version : Nat
  released : Fields
  sourceCommandId : String
  projectionHash : String

structure CompiledTransition where
  previousState : ExchangeState
  nextState : CoordinatorState
  buyerProjection : PartyProjection
  sellerProjection : PartyProjection

/-- What a state has released to the parties, by name. -/
def CoordinatorState.released (state : CoordinatorState) : Fields :=
  [("requirement", state.requirement), ("evidence", state.evidence),
    ("current_offer", state.currentOffer), ("approval", state.approval)].filterMap
      (fun p => p.2.map (fun fields => (p.1, Value.obj fields)))

/-- `sha256(rfc8785.dumps(payload))`, which knows no timestamps. -/
def rfc8785Hash (rt : Runtime) (payload : Value) : Exchanged String :=
  if payload.atoms.any (fun a => a.outOfDomain || a matches .datetime _) then
    .error .canonicalization
  else .ok ("sha256:" ++ rt.hexdigest payload)

/-- `_projection` -/
def projection (rt : Runtime) (state : CoordinatorState) (party : ExchangeParty)
    (commandId : String) : Exchanged PartyProjection := do
  let hash ← rfc8785Hash rt (.obj [("case_id", .str state.caseId), ("party", .str party.value),
    ("state", .str state.state.value), ("version", .nat state.version),
    ("released", .obj state.released), ("source_command_id", .str commandId)])
  return {
    caseId := state.caseId
    party := party
    state := state.state
    version := state.version
    released := state.released
    sourceCommandId := commandId
    projectionHash := hash }

/-- The state a command leads to. -/
def ExchangeState.target (state : ExchangeState) (commandType : CommandType) :
    Exchanged ExchangeState :=
  match commandType with
  | .reject => .ok .rejected
  | .expire => .ok .expired
  | _ =>
    match state.transition? commandType with
    | some target => .ok target
    | none => .error (.exchangeConflict "command is invalid for the current exchange state")

/-- `state.model_copy(update=changes)` -/
def CoordinatorState.advance (state : CoordinatorState) (target : ExchangeState)
    (command : PartyCommandData) : CoordinatorState :=
  let moved := { state with
    state := target, version := state.version + 1, lastCommandId := some command.id }
  match command.commandType with
  | .releaseRequirement => { moved with requirement := some command.payload }
  | .publishEvidence => { moved with evidence := some command.payload }
  | .proposeOffer | .counterOffer => { moved with currentOffer := some command.payload }
  | .approveHandoff => { moved with approval := some command.payload }
  | _ => moved

/-- `compile_party_command` -/
def compilePartyCommand (rt : Runtime) (state : CoordinatorState) (command : PartyCommand rt) :
    Exchanged CompiledTransition :=
  if command.caseId ≠ state.caseId then
    .error (.exchangeConflict "command targets another exchange case")
  else if command.expectedVersion ≠ state.version then
    .error (.exchangeConflict "command expected a stale coordinator version")
  else do
    let target ← state.state.target command.commandType
    let next := state.advance target command.toPartyCommandData
    let buyerProjection ← projection rt next .buyer command.id
    let sellerProjection ← projection rt next .seller command.id
    return ⟨state.state, next, buyerProjection, sellerProjection⟩

section Compile

variable {rt : Runtime} {state : CoordinatorState}

theorem projection_eq_ok {party : ExchangeParty} {commandId : String} {shown : PartyProjection}
    (h : projection rt state party commandId = .ok shown) :
    shown.caseId = state.caseId ∧ shown.party = party ∧ shown.state = state.state ∧
      shown.version = state.version ∧ shown.released = state.released ∧
      shown.sourceCommandId = commandId := by
  unfold projection at h
  obtain ⟨hash, -, h⟩ := bind_eq_ok.mp h
  obtain rfl := pure_eq_ok.mp h
  exact ⟨rfl, rfl, rfl, rfl, rfl, rfl⟩

/-- What a compiled command has checked and what it leaves. -/
structure Compiles (rt : Runtime) (state : CoordinatorState) (command : PartyCommand rt)
    (compiled : CompiledTransition) : Prop where
  caseId : command.caseId = state.caseId
  version : command.expectedVersion = state.version
  target : state.state.target command.commandType = .ok compiled.nextState.state
  previous : compiled.previousState = state.state
  next : compiled.nextState =
    state.advance compiled.nextState.state command.toPartyCommandData
  buyer : projection rt compiled.nextState .buyer command.id = .ok compiled.buyerProjection
  seller : projection rt compiled.nextState .seller command.id = .ok compiled.sellerProjection

@[simp] theorem CoordinatorState.advance_state (target : ExchangeState)
    (command : PartyCommandData) : (state.advance target command).state = target := by
  unfold CoordinatorState.advance
  split <;> rfl

@[simp] theorem CoordinatorState.advance_version (target : ExchangeState)
    (command : PartyCommandData) : (state.advance target command).version = state.version + 1 := by
  unfold CoordinatorState.advance
  split <;> rfl

@[simp] theorem CoordinatorState.advance_caseId (target : ExchangeState)
    (command : PartyCommandData) : (state.advance target command).caseId = state.caseId := by
  unfold CoordinatorState.advance
  split <;> rfl

theorem compiles_of_compilePartyCommand {command : PartyCommand rt}
    {compiled : CompiledTransition} (h : compilePartyCommand rt state command = .ok compiled) :
    Compiles rt state command compiled := by
  unfold compilePartyCommand at h
  split at h
  · cases h
  · rename_i hcase
    split at h
    · cases h
    · rename_i hversion
      obtain ⟨target, htarget, h⟩ := bind_eq_ok.mp h
      obtain ⟨buyer, hbuyer, h⟩ := bind_eq_ok.mp h
      obtain ⟨seller, hseller, h⟩ := bind_eq_ok.mp h
      obtain rfl := pure_eq_ok.mp h
      constructor
      · exact not_not.mp hcase
      · exact not_not.mp hversion
      · rw [CoordinatorState.advance_state]
        exact htarget
      · rfl
      · rw [CoordinatorState.advance_state]
      · exact hbuyer
      · exact hseller

end Compile

/-! ## Final states -/

/-- The states that the table of transitions does not lead out of. -/
def ExchangeState.terminal : ExchangeState → Bool
  | approvedForHandoff | rejected | expired => true
  | _ => false

/-- The commands of the system that end an exchange. -/
def CommandType.ends : CommandType → Bool
  | reject | expire => true
  | _ => false

theorem ExchangeState.transition?_of_terminal {state : ExchangeState} (h : state.terminal = true)
    (commandType : CommandType) : state.transition? commandType = none := by
  cases state <;> cases commandType <;> first | rfl | cases h

theorem ExchangeState.target_of_ends {state target : ExchangeState} {commandType : CommandType}
    (hends : commandType.ends = true) (h : state.target commandType = .ok target) :
    target.terminal = true := by
  cases commandType with
  | reject =>
    cases h
    rfl
  | expire =>
    cases h
    rfl
  | _ => cases hends

theorem ExchangeState.target_of_terminal {state : ExchangeState} {commandType : CommandType}
    (hterminal : state.terminal = true) (hends : commandType.ends = false) :
    state.target commandType =
      .error (.exchangeConflict "command is invalid for the current exchange state") := by
  cases commandType with
  | reject => cases hends
  | expire => cases hends
  | _ => simp only [ExchangeState.target, ExchangeState.transition?_of_terminal hterminal]

variable {rt : Runtime}

/-- The state after a submitted command; a command that raises changes nothing. -/
def CoordinatorState.submit (state : CoordinatorState) (command : PartyCommand rt) :
    CoordinatorState :=
  match compilePartyCommand rt state command with
  | .ok compiled => compiled.nextState
  | .error _ => state

theorem compilePartyCommand_of_terminal {state : CoordinatorState} {command : PartyCommand rt}
    (hterminal : state.state.terminal = true) (hends : command.commandType.ends = false) :
    ∃ message, compilePartyCommand rt state command = .error (.exchangeConflict message) := by
  unfold compilePartyCommand
  split
  · exact ⟨_, rfl⟩
  · split
    · exact ⟨_, rfl⟩
    · rw [ExchangeState.target_of_terminal hterminal hends, error_bind]
      exact ⟨_, rfl⟩

theorem terminal_submit {state : CoordinatorState} (command : PartyCommand rt)
    (hterminal : state.state.terminal = true) : (state.submit command).state.terminal = true := by
  unfold CoordinatorState.submit
  cases hends : command.commandType.ends with
  | false =>
    obtain ⟨message, hraises⟩ := compilePartyCommand_of_terminal hterminal hends
    rw [hraises]
    exact hterminal
  | true =>
    split
    · rename_i compiled hcompiled
      exact ExchangeState.target_of_ends hends (compiles_of_compilePartyCommand hcompiled).target
    · exact hterminal

/-- In a final state every command but REJECT and EXPIRE raises a conflict. No run of
    commands leaves the final states, and one without these two leaves the state as it
    is. -/
theorem terminal_states_closed (state : CoordinatorState)
    (hterminal : state.state.terminal = true) :
    (∀ command : PartyCommand rt, command.commandType.ends = false →
      ∃ message, compilePartyCommand rt state command = .error (.exchangeConflict message)) ∧
    (∀ commands : List (PartyCommand rt),
      (commands.foldl CoordinatorState.submit state).state.terminal = true) ∧
    ∀ commands : List (PartyCommand rt), (∀ c ∈ commands, c.commandType.ends = false) →
      commands.foldl CoordinatorState.submit state = state := by
  refine ⟨fun command => compilePartyCommand_of_terminal hterminal, fun commands => ?_,
    fun commands hcommands => ?_⟩
  · induction commands generalizing state with
    | nil => exact hterminal
    | cons command commands ih => exact ih (state.submit command) (terminal_submit command hterminal)
  · -- Each command raises, so each one leaves the same state to the next.
    induction commands with
    | nil => rfl
    | cons command commands ih =>
      obtain ⟨message, hraises⟩ :=
        compilePartyCommand_of_terminal hterminal (hcommands command List.mem_cons_self)
      have hsame : state.submit command = state := by
        unfold CoordinatorState.submit
        rw [hraises]
      rw [List.foldl_cons, hsame]
      exact ih (fun c hc => hcommands c (List.mem_cons_of_mem command hc))

namespace Sample

/-- An exchange that was approved for handoff. -/
def approved : CoordinatorState where
  caseId := "case-1"
  state := .approvedForHandoff
  version := 7

def rejection : PartyCommand .ascii where
  id := "command-7"
  caseId := "case-1"
  party := .system
  actorId := "system"
  commandType := .reject
  expectedVersion := 7
  idempotencyKey := "idem-7"
  payload := []
  admitted := by decide +kernel

end Sample

/-- A command of the system turns an approved exchange into a rejected one. -/
theorem approved_exchange_rejected :
    Sample.approved.state.terminal = true ∧
      (∃ compiled, compilePartyCommand .ascii Sample.approved Sample.rejection = .ok compiled) ∧
      (Sample.approved.submit Sample.rejection).state = .rejected := by
  refine ⟨rfl, exists_of_isOk (by decide +kernel), by decide +kernel⟩

/-- The approved exchange stays in a final state whatever is submitted. -/
theorem terminal_states_closed_sample :
    ([Sample.rejection, Sample.rejection].foldl CoordinatorState.submit
      Sample.approved).state.terminal = true :=
  (terminal_states_closed Sample.approved rfl).2.1 [Sample.rejection, Sample.rejection]

end Domain
