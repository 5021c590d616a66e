-- SUMMARY: A contextual turn as a chain of transactions, model calls and tool calls, and the cancellation of its run, as calls that interleave over one journal.
import SiraSeil.Library.Interleaving
import SiraSeil.Persistence.CognitiveRepository
import SiraSeil.SiraAgents.ContextAssembler
import SiraSeil.SiraAgents.ToolBroker

/-!
# The run engine

`RunEngine` of `services/api/sira_api/cognitive_engine.py`. A turn captures its message as a run,
binds its context, and asks a model for decisions; tools that a decision proposes are authorized,
executed and completed one by one. Every phase of a turn is one transaction or one call to the
outside, and other calls may take their steps between two phases.
-/

namespace SiraApi

namespace CognitiveEngine

open Domain Persistence SiraAgents

/-! ## Commands and results -/

structure TurnCommand where
  organizationId : String
  actorId : String
  principal : Principal
  party : Party
  purpose : String
  conversationId : String
  turnId : String
  idempotencyKey : String
  message : String
  actorRoles : List String := []
  permissions : List String := []
  availableTools : List String := []
  recentMessages : List (List (String × Value)) := []
  summary : Option String := none
  unresolvedQuestions : List String := []
  privateContext : List (String × Value) := []
  exchangeProjection : List (String × Value) := []
  budget : TurnBudget := {}

/-- What a completed tool call returned -/
structure Observation where
  callId : String
  toolName : String
  contractVersion : String
  output : List (String × Value)

def Observation.toValue (o : Observation) : Value :=
  .obj [("call_id", .str o.callId), ("tool_name", .str o.toolName),
    ("contract_version", .str o.contractVersion), ("output", .obj o.output)]

structure TurnResult where
  runId : String
  status : RunStatus
  message : String
  duplicate : Bool := false
  toolCalls : List String := []
  toolResults : List Observation := []

/-- The engine with the packages it uses; a handler is known by the name of its tool. -/
structure RunEngine where
  rt : Runtime
  validator : SchemaValidator
  guard : PayloadGuard
  broker : ToolBroker
  handlers : List String
  assembler : Option ContextAssembler

/-- What a model call comes to: a decision, or what `decide` raised. -/
inductive ModelOutcome
  | decision (d : TurnDecision)
  | timeout
  | invalid
  | failure

/-- What a handler comes to: an output, or what it raised. -/
inductive HandlerOutcome
  | output (fields : List (String × Value))
  | denied
  | timeout
  | failure

/-- What the outside gives to a step. A transaction fails where the database is unavailable. -/
structure TurnGiven extends Given where
  unavailable : Bool := false
  model : ModelOutcome := .failure
  handler : HandlerOutcome := .failure

/-- What a turn raises. -/
inductive TurnError
  | stored (error : QualificationError)
  | assembly (error : AssemblyError)

/-! ## The context of a turn -/

def TurnCommand.input (command : TurnCommand) : Journal.Input where
  principal := command.principal
  actorId := command.actorId
  conversationId := command.conversationId
  turnId := command.turnId
  idempotencyKey := command.idempotencyKey
  purpose := command.purpose
  inputText := command.message
  budget := command.budget

def TurnCommand.context (command : TurnCommand) : TurnContext where
  principal := command.principal
  party := command.party
  organizationId := command.organizationId
  actorId := command.actorId
  actorRoles := command.actorRoles
  permissions := command.permissions
  purpose := command.purpose
  conversationId := command.conversationId
  turnId := command.turnId
  currentMessage := command.message
  recentMessages := command.recentMessages
  summary := command.summary
  unresolvedQuestions := command.unresolvedQuestions
  privateContext := command.privateContext
  exchangeProjection := command.exchangeProjection
  requestedTools := command.availableTools

/-- The stage at which tools are shown and authorized -/
def stage : String := "evaluating"

namespace RunEngine

variable (engine : RunEngine)

/-- The manifest of a command, assembled under its policy where there is an assembler -/
def assemble (command : TurnCommand) : Except AssemblyError ContextManifest :=
  match engine.assembler with
  | some assembler => assembler.assemble engine.rt engine.guard command.context
  | none => buildSealed engine.rt (command.context.manifest command.actorRoles command.permissions
      command.availableTools command.budget)

/-- The manifest that is bound to a run: with the contracts of the tools that it shows -/
def prepare (command : TurnCommand) : Except AssemblyError ContextManifest := do
  let manifest ← engine.assemble command
  ({ manifest with
    toolContracts := (engine.broker.visibleTools manifest stage).map ToolManifest.contract
    manifestHash := none }.sealed engine.rt).mapError .value

end RunEngine

/-! ## Turns -/

/-- The locals of a turn whose context is prepared -/
structure Turn where
  runId : String
  duplicate : Bool
  manifest : ContextManifest
  modelCall : Nat := 1
  toolResults : List Observation := []
  allToolResults : List Observation := []
  completedToolNames : List String := []
  mutationsUsed : Nat := 0

/-- `exchange_projection` with an item, which replaces the one under its key -/
def withItem (key : String) (value : Value) (items : List (String × Value)) :
    List (String × Value) :=
  if key ∈ items.map Prod.fst then Dict.overwrite key value items else items ++ [(key, value)]

/-- `decision_manifest`: once tools have answered, no further tools are available. -/
def Turn.decisionManifest (rt : Runtime) (turn : Turn) : Py ContextManifest :=
  if turn.toolResults = [] then .ok turn.manifest
  else { turn.manifest with
    exchangeProjection := withItem "authorized_tool_results"
      (.seq (turn.toolResults.map Observation.toValue)) turn.manifest.exchangeProjection
    availableTools := []
    toolContracts := []
    manifestHash := none }.sealed rt

/-- A proposed call of a turn, with the calls of its batch that follow -/
structure Proposed where
  turn : Turn
  manifest : ContextManifest
  call : ProposedToolCall
  rest : List ProposedToolCall

/-- An authorized call of a turn -/
structure Authorized extends Proposed where
  tool : ToolManifest
  invocationId : String

inductive ToolFailure
  | denied | timeout | executionFailed
  deriving DecidableEq

/-- How a turn ends: what its run is finished with, and what it returns. -/
structure Ending where
  runId : String
  status : RunStatus
  message : String
  failureCode : Option String
  result : TurnResult

/-- What a turn does next -/
inductive Phase
  | capture
  | existing (runId : String)
  | bind (turn : Turn)
  | decide (turn : Turn)
  | record (turn : Turn) (manifest : ContextManifest) (decision : TurnDecision)
  | authorize (proposed : Proposed)
  | execute (authorized : Authorized)
  | handle (authorized : Authorized)
  | complete (authorized : Authorized) (output : List (String × Value))
  | failTool (turn : Turn) (invocationId : String) (failure : ToolFailure)
  | finish (ending : Ending)
  | returned (result : TurnResult)
  | raised (error : TurnError)

/-- `_fail`, which finishes the run and then returns -/
def failing (turn : Turn) (code : FailureCode) (message : String)
    (toolResults : List Observation) : Phase :=
  .finish {
    runId := turn.runId
    status := .failed
    message := message
    failureCode := some code.value
    result := {
      runId := turn.runId
      status := .failed
      message := message
      toolCalls := turn.completedToolNames
      toolResults := toolResults } }

def ToolFailure.safeErrorCode : ToolFailure → String
  | denied => "TOOL_DENIED"
  | timeout => "TOOL_TIMEOUT"
  | executionFailed => "TOOL_EXECUTION_FAILED"

/-- The turn ends after a tool failed. -/
def ToolFailure.ends (failure : ToolFailure) (turn : Turn) : Phase :=
  match failure with
  | denied => failing turn .toolDenied
      "I don't have permission to do that. I can continue with an allowed option."
      turn.allToolResults
  | timeout => failing turn .toolTimeout
      "That action didn't respond in time. Your confirmed work is saved." turn.allToolResults
  | executionFailed => failing turn .providerUnavailable
      "I couldn't retrieve that safely. Your confirmed work is saved." turn.allToolResults

def brokerFailure : BrokerError → ToolFailure
  | .denied _ => .denied
  | .raised => .executionFailed

/-- `compose`: the message and the status of a decision that proposes no tools, with its failure
    code -/
def compose : TurnDecision → Option (String × RunStatus × Option String)
  | .respond message => some (message, .completed, none)
  | .clarify question _ => some (question, .waiting, none)
  | .proposeTools _ => none
  | .requestApproval _ summary _ => some (summary, .waiting, none)
  | .waitForExternal _ => some
      ("I'm waiting for the requested information. Your confirmed work is saved.", .waiting, none)
  | .complete message => some (message, .completed, none)
  | .failSafely failure => some (failure.message, .failed, some failure.code.value)

/-- The next iteration of the loop over model calls, or its end -/
def iterate (command : TurnCommand) (turn : Turn) : Phase :=
  if turn.modelCall < command.budget.maxModelCalls then
    .decide { turn with modelCall := turn.modelCall + 1 }
  else failing turn .budgetExhausted
    "I need a fresh turn to continue. Everything confirmed so far is saved." turn.allToolResults

/-- The next call of a batch, or the next iteration -/
def proceed (command : TurnCommand) (turn : Turn) (manifest : ContextManifest) :
    List ProposedToolCall → Phase
  | [] => iterate command turn
  | call :: rest => .authorize ⟨turn, manifest, call, rest⟩

/-- What follows a recorded decision -/
def recorded (command : TurnCommand) (turn : Turn) (manifest : ContextManifest)
    (decision : TurnDecision) : Phase :=
  match decision with
  | .proposeTools batch => proceed command { turn with toolResults := [] } manifest batch.calls
  | _ =>
    match compose decision with
    | some (message, status, failureCode) => .finish {
        runId := turn.runId
        status := status
        message := message
        failureCode := failureCode
        result := {
          runId := turn.runId
          status := status
          message := message
          duplicate := turn.duplicate
          toolCalls := turn.completedToolNames
          toolResults := turn.allToolResults } }
    | none => .raised (.stored (.runtimeError
        "tool proposals must be executed before composing a response"))

/-- What follows a model call under the manifest it was given -/
def decided (command : TurnCommand) (turn : Turn) (manifest : ContextManifest) :
    ModelOutcome → Phase
  | .decision decision => .record turn manifest decision
  | .timeout => failing turn .providerUnavailable
      "I couldn't finish in time. Your confirmed work is saved; please try again." []
  | .invalid =>
    if turn.modelCall < command.budget.maxModelCalls then
      .decide { turn with modelCall := turn.modelCall + 1 }
    else failing turn .invalidDecision "I couldn't complete that safely. Please try again." []
  | .failure => failing turn .providerUnavailable
      "I couldn't reach the reasoning service. Your confirmed work is saved." []

/-- A turn after a tool call was completed -/
def observed (a : Authorized) (output : List (String × Value)) : Turn :=
  let observation : Observation :=
    ⟨a.call.callId, a.call.toolName, a.call.contractVersion, output⟩
  { a.turn with
    completedToolNames := a.turn.completedToolNames ++ [a.tool.name]
    toolResults := a.turn.toolResults ++ [observation]
    allToolResults := a.turn.allToolResults ++ [observation]
    mutationsUsed :=
      if a.tool.risk = .mutation then a.turn.mutationsUsed + 1 else a.turn.mutationsUsed }

/-- What follows the output of a handler -/
def handled (validator : SchemaValidator) (a : Authorized) : HandlerOutcome → Phase
  | .output output =>
    match ToolBroker.validate validator a.tool.outputSchema output "TOOL_OUTPUT_INVALID" with
    | .ok () => .complete a output
    | .error e => .failTool a.turn a.invocationId (brokerFailure e)
  | .denied => .failTool a.turn a.invocationId .denied
  | .timeout => .failTool a.turn a.invocationId .timeout
  | .failure => .failTool a.turn a.invocationId .executionFailed

/-! ## Transactions -/

section Transactions

variable (rt : Runtime) (organizationId : String)

/-- `_capture`, with whether the run was there before -/
def captureTurn (command : TurnCommand) (given : Given) (j : Journal) :
    Qualified ((CognitiveRun × Bool) × Journal) := do
  let before := j.keyedRun command.organizationId command.actorId command.idempotencyKey
  let (run, j) ← j.capture command.organizationId rt command.input given
  return ((run, before.isSome), j)

/-- `_bind_manifest` -/
def bindTurn (runId : String) (manifest : ContextManifest) (j : Journal) :
    Qualified (Unit × Journal) := do
  let run ← j.get organizationId runId
  match run.manifestHash with
  | none =>
    let j ← j.bindManifest rt run manifest
    return ((), j)
  | some hash =>
    if some hash ≠ manifest.manifestHash then
      throw (.valueError "run is already bound to another context manifest")
    return ((), j)

/-- `_record_decision` -/
def recordTurn (runId : String) (decision : TurnDecision) (j : Journal) :
    Qualified (Unit × Journal) := do
  let run ← j.get organizationId runId
  let j ← j.recordDecision organizationId rt run decision
  return ((), j)

/-- `_authorize_tool`, with the id of the invocation -/
def authorizeCall (runId : String) (call : ProposedToolCall) (tool : ToolManifest) (given : Given)
    (j : Journal) : Qualified (String × Journal) := do
  let run ← j.get organizationId runId
  let (invocation, j) ← j.requestTool organizationId rt run call tool.risk given
  return (invocation.id, j.authorizeTool invocation)

/-- `_complete_tool` -/
def completeCall (runId invocationId : String) (tool : ToolManifest)
    (output : List (String × Value)) (j : Journal) : Qualified (Unit × Journal) := do
  let run ← j.get organizationId runId
  let invocation ← j.snapshotTool organizationId run invocationId
  let (outputHash, j) ← j.completeTool rt invocation output
  let j ← j.appendStep organizationId rt run.id "TOOL_RESULT" "COMPLETED"
    [("tool_name", .str tool.name), ("output_hash", .str outputHash)]
  return ((), j)

/-- `_fail_tool` -/
def failCall (runId invocationId safeErrorCode : String) (j : Journal) :
    Qualified (Unit × Journal) := do
  let run ← j.get organizationId runId
  let invocation ← j.snapshotTool organizationId run invocationId
  let j ← j.failTool invocation safeErrorCode
  return ((), j)

/-- `_finish` -/
def finishTurn (ending : Ending) (j : Journal) : Qualified (Unit × Journal) := do
  let run ← j.get organizationId ending.runId
  let j ← j.finish organizationId rt run ending.status ending.message ending.failureCode
  return ((), j)

/-- `_existing_result` -/
def existingResult (runId : String) (j : Journal) : Qualified (TurnResult × Journal) := do
  let run ← j.get organizationId runId
  let messages : List Value := (j.steps.filter (fun s => s.organizationId = organizationId ∧
    s.runId = run.id)).filterMap (fun s => s.payload.lookup "message")
  let completed := j.invocations.filter (fun i => i.organizationId = organizationId ∧
    i.runId = run.id ∧ i.status = .completed)
  return ({
    runId := runId
    status := run.status
    message := match messages.getLast? with
      | some (.atom (.str message)) => message
      | _ => "Your previous result is available."
    duplicate := true
    toolCalls := completed.map (·.toolName)
    toolResults := completed.map (fun i =>
      ⟨i.callId, i.toolName, i.contractVersion, i.output.getD []⟩) }, j)

/-- `cancel` -/
def cancelRun (runId : String) (given : Given) (j : Journal) : Qualified (Unit × Journal) := do
  let run ← j.get organizationId runId
  return ((), j.cancel run given)

end Transactions

/-! ## Calls -/

/-- A handler that was invoked for a call id of a run -/
structure ToolExecution where
  runId : String
  callId : String
  toolName : String
  deriving DecidableEq

/-- The journal, and the handlers that were invoked so far -/
structure EngineStore where
  journal : Journal := {}
  executions : List ToolExecution := []

/-- A command with what became of it: how often the model was called, what it decided, and the calls
    that a handler was invoked for -/
structure Trace where
  command : TurnCommand
  modelCalls : Nat := 0
  decisions : List TurnDecision := []
  invoked : List (ProposedToolCall × ToolManifest) := []

/-- A process call in its phase -/
structure ProcessCall extends Trace where
  phase : Phase := .capture

inductive EngineCall
  | process (call : ProcessCall)
  | cancel (organizationId runId : String)
  | cancelled

inductive EngineRequest
  | process (command : TurnCommand)
  | cancel (organizationId runId : String)

/-- A transaction commits and the call goes on, or it raises and leaves the journal as it was. -/
def commits {α : Type} (call : ProcessCall) (s : EngineStore) (given : TurnGiven)
    (work : Journal → Qualified (α × Journal)) (returns : α → Phase)
    (raises : QualificationError → Phase) : ProcessCall × EngineStore :=
  if given.unavailable then
    ({ call with phase := raises (.runtimeError "the database is unavailable") }, s)
  else
    match work s.journal with
    | .ok (a, journal) => ({ call with phase := returns a }, { s with journal := journal })
    | .error e => ({ call with phase := raises e }, s)

/-- What follows a captured run: its result if it was settled before, and otherwise its context -/
def captured (engine : RunEngine) (command : TurnCommand) (run : CognitiveRun) (duplicate : Bool) :
    Phase :=
  if duplicate ∧ (run.status.Final ∨ run.status = .waiting) then .existing run.id
  else
    match engine.prepare command with
    | .ok manifest => .bind {
        runId := run.id
        duplicate := duplicate
        manifest := manifest }
    | .error e => .raised (.assembly e)

/-- What follows an authorized call -/
def authorizedPhase (p : Proposed) (tool : ToolManifest) (invocationId : String) : Phase :=
  .execute {
    toProposed := p
    tool := tool
    invocationId := invocationId }

/-- One step of `process` -/
def advance (engine : RunEngine) (call : ProcessCall) (given : TurnGiven) (s : EngineStore) :
    ProcessCall × EngineStore :=
  let organizationId := call.command.organizationId
  let raises : QualificationError → Phase := fun e => .raised (.stored e)
  match call.phase with
  | .capture => commits call s given (captureTurn engine.rt call.command given.toGiven)
      (fun r => captured engine call.command r.1 r.2) raises
  | .existing runId => commits call s given (existingResult organizationId runId) .returned raises
  | .bind turn => commits call s given (bindTurn engine.rt organizationId turn.runId turn.manifest)
      (fun _ => .decide turn) raises
  | .decide turn =>
    match turn.decisionManifest engine.rt with
    | .error e => ({ call with phase := .raised (.assembly (.value e)) }, s)
    | .ok manifest =>
      ({ call with
        phase := decided call.command turn manifest given.model
        modelCalls := call.modelCalls + 1
        decisions := match given.model with
          | .decision decision => call.decisions ++ [decision]
          | _ => call.decisions }, s)
  | .record turn manifest decision =>
    commits call s given (recordTurn engine.rt organizationId turn.runId decision)
      (fun _ => recorded call.command turn manifest decision) raises
  | .authorize p =>
    match engine.broker.authorize engine.validator p.call p.manifest stage p.turn.mutationsUsed with
    | .error e => ({ call with phase := (brokerFailure e).ends p.turn }, s)
    | .ok tool => commits call s given
        (authorizeCall engine.rt organizationId p.turn.runId p.call tool given.toGiven)
        (authorizedPhase p tool) (fun _ => ToolFailure.executionFailed.ends p.turn)
  | .execute a =>
    if a.tool.name ∈ engine.handlers then
      ({ call with
        phase := .handle a
        invoked := call.invoked ++ [(a.call, a.tool)] },
        { s with executions := s.executions ++ [⟨a.turn.runId, a.call.callId, a.tool.name⟩] })
    else ({ call with phase := .failTool a.turn a.invocationId .denied }, s)
  | .handle a => ({ call with phase := handled engine.validator a given.handler }, s)
  | .complete a output => commits call s given
      (completeCall engine.rt organizationId a.turn.runId a.invocationId a.tool output)
      (fun _ => proceed call.command (observed a output) a.manifest a.rest)
      (fun _ => .failTool a.turn a.invocationId .executionFailed)
  | .failTool turn invocationId failure => commits call s given
      (failCall organizationId turn.runId invocationId failure.safeErrorCode)
      (fun _ => failure.ends turn) raises
  | .finish ending => commits call s given (finishTurn engine.rt organizationId ending)
      (fun _ => .returned ending.result) raises
  | .returned _ => (call, s)
  | .raised _ => (call, s)

/-- The calls of an engine over one journal -/
def system (engine : RunEngine) :
    Interleaving.System EngineStore EngineCall EngineRequest TurnGiven where
  start
    | .process command, _, _ => .process { command := command }
    | .cancel organizationId runId, _, _ => .cancel organizationId runId
  next
    | .process call, given, s =>
      let (call, s) := advance engine call given s
      (.process call, s)
    | .cancel organizationId runId, given, s =>
      if given.unavailable then (.cancelled, s)
      else
        match cancelRun organizationId runId given.toGiven s.journal with
        | .ok (_, journal) => (.cancelled, { s with journal := journal })
        | .error _ => (.cancelled, s)
    | .cancelled, _, s => (.cancelled, s)

/-! ## What is prepared -/

section Steps

/-- A prepared manifest is sealed, and it is for its command: with tools that the command requests
    and that the policy of its principal allows, and with the budget of that policy. -/
structure Prepares (engine : RunEngine) (command : TurnCommand) (manifest : ContextManifest) :
    Prop where
  principal : manifest.principal = command.principal
  party : manifest.party = command.party
  actorId : manifest.actorId = command.actorId
  purpose : manifest.purpose = command.purpose
  requested : ∀ name ∈ manifest.availableTools, name ∈ command.availableTools
  allowed : ∀ assembler, engine.assembler = some assembler → ∃ policy,
    assembler.policies.resolve command.principal command.party command.purpose = .ok policy ∧
      manifest.budget = policy.budget ∧ ∀ name ∈ manifest.availableTools, name ∈ policy.allowedTools
  unassembled : engine.assembler = none → manifest.budget = command.budget
  hashed : ∃ hash, manifest.calculateHash engine.rt = .ok hash ∧ manifest.manifestHash = some hash

variable {engine : RunEngine} {command : TurnCommand}

theorem prepare_eq_ok {manifest : ContextManifest} (h : engine.prepare command = .ok manifest) :
    Prepares engine command manifest := by
  unfold RunEngine.prepare at h
  obtain ⟨assembled, hassembled, h⟩ := Raising.bind_eq_ok.mp h
  obtain ⟨hash, hhash, rfl⟩ := ContextManifest.sealed_eq_ok (Raising.mapError_eq_ok.mp h)
  unfold RunEngine.assemble at hassembled
  split at hassembled
  · next assembler hassembler =>
    obtain ⟨policy, hpolicy, roles, permissions, tools, _, htools, rfl⟩ :=
      assemble_eq_ok hassembled
    refine ⟨rfl, rfl, rfl, rfl, fun name hname => ((htools name).mp hname).1, ?_, ?_,
      hash, hhash, rfl⟩
    · intro other hother
      obtain rfl : assembler = other := Option.some.inj (hassembler.symm.trans hother)
      exact ⟨policy, hpolicy, rfl, fun name hname => ((htools name).mp hname).2⟩
    · intro hnone
      rw [hassembler] at hnone
      cases hnone
  · next hnone =>
    obtain ⟨_, rfl⟩ := buildSealed_eq_ok hassembled
    refine ⟨rfl, rfl, rfl, rfl, fun _ hname => hname, ?_, fun _ => rfl, hash, hhash, rfl⟩
    intro assembler hassembler
    rw [hnone] at hassembler
    cases hassembler

/-! ## Steps -/

@[elab_as_elim]
theorem commits_induction {α : Type} {call : ProcessCall} {s : EngineStore} {given : TurnGiven}
    {work : Journal → Qualified (α × Journal)} {returns : α → Phase}
    {raises : QualificationError → Phase} {P : ProcessCall × EngineStore → Prop}
    (hraises : ∀ e, given.unavailable = true ∨ work s.journal = .error e →
      P ({ call with phase := raises e }, s))
    (hreturns : ∀ a journal, work s.journal = .ok (a, journal) →
      P ({ call with phase := returns a }, { s with journal := journal })) :
    P (commits call s given work returns raises) := by
  unfold commits
  split
  · next hdown => exact hraises _ (.inl hdown)
  · split
    · next a journal hwork => exact hreturns a journal hwork
    · next e hwork => exact hraises e (.inr hwork)

/-- What the steps of a process call keep, whatever the store is, holds of every process call of a
    run. -/
theorem process_calls_run {P : ProcessCall → Prop} (hstart : ∀ command, P { command := command })
    (hnext : ∀ call given s, P call → P (advance engine call given s).1) {s : EngineStore}
    {events : List (Interleaving.Event EngineRequest TurnGiven)} {call : ProcessCall}
    (hcall : .process call ∈ ((system engine).run ⟨s, []⟩ events).calls) : P call := by
  refine Interleaving.System.calls_run (P := fun c => ∀ call, c = .process call → P call) ?_ ?_
    (fun _ hnone => absurd hnone List.not_mem_nil) events _ hcall call rfl
  · intro s request given call h
    cases request with
    | process command =>
      cases h
      exact hstart command
    | cancel organizationId runId => cases h
  · intro s c given hbefore call h
    cases c with
    | process before =>
      cases h
      exact hnext before given s (hbefore before rfl)
    | cancel organizationId runId =>
      simp only [system] at h
      split at h
      · cases h
      · split at h <;> cases h
    | cancelled => cases h

theorem commits_ok {α : Type} {call : ProcessCall} (s : EngineStore) {given : TurnGiven}
    (work : Journal → Qualified (α × Journal)) {returns : α → Phase}
    {raises : QualificationError → Phase} {a : α} {journal : Journal}
    (hup : given.unavailable = false) (hwork : work s.journal = .ok (a, journal)) :
    commits call s given work returns raises =
      ({ call with phase := returns a }, { s with journal := journal }) := by
  unfold commits
  rw [hup, hwork]
  rfl

/-- The steps of one process call, which is given what the outside answers to each -/
def processes (engine : RunEngine) (call : ProcessCall) (s : EngineStore)
    (givens : List TurnGiven) : ProcessCall × EngineStore :=
  givens.foldl (fun r given => advance engine r.1 given r.2) (call, s)

theorem processes_nil (call : ProcessCall) (s : EngineStore) :
    processes engine call s [] = (call, s) :=
  rfl

theorem processes_cons (call : ProcessCall) (s : EngineStore) (given : TurnGiven)
    (givens : List TurnGiven) : processes engine call s (given :: givens) =
      processes engine (advance engine call given s).1 (advance engine call given s).2 givens :=
  rfl

theorem processes_append (call : ProcessCall) (s : EngineStore) (givens later : List TurnGiven) :
    processes engine call s (givens ++ later) =
      processes engine (processes engine call s givens).1 (processes engine call s givens).2 later :=
  List.foldl_append

theorem run_processes (call : ProcessCall) (s : EngineStore) (givens : List TurnGiven) :
    (system engine).run ⟨s, [.process call]⟩ (givens.map (.advance 0)) =
      ⟨(processes engine call s givens).2, [.process (processes engine call s givens).1]⟩ := by
  induction givens generalizing call s with
  | nil => rfl
  | cons given givens ih => exact ih _ _

theorem run_process (command : TurnCommand) (s : EngineStore) (given : TurnGiven)
    (givens : List TurnGiven) :
    (system engine).run ⟨s, []⟩ (.start (.process command) given :: givens.map (.advance 0)) =
      ⟨(processes engine { command := command } s givens).2,
        [.process (processes engine { command := command } s givens).1]⟩ :=
  run_processes { command := command } s givens

end Steps

/-! ## A turn of a buyer -/

namespace Sample

def schema (name : String) : List (String × Value) :=
  [("type", .str "object"), ("properties", .obj [(name, .obj [("type", .str "string")])]),
    ("required", .strs [name]), ("additionalProperties", .bool false)]

def readEvidence : ToolManifest where
  name := "read_evidence"
  contractVersion := "v1"
  description := "Read a permitted evidence record."
  allowedPrincipals := [.sira]
  allowedParties := [.buyer]
  purposes := ["software_selection"]
  allowedStages := ["evaluating"]
  risk := .read
  inputSchema := schema "evidence_id"
  outputSchema := schema "claim"
  timeoutSeconds := 20

def saveNote : ToolManifest :=
  { readEvidence with
    name := "save_note"
    description := "Save a note."
    risk := .mutation
    inputSchema := schema "note"
    outputSchema := schema "note_id" }

/-- For the schemas above: each property is required, and there is no other one. -/
def validator : SchemaValidator := fun schema document =>
  match schema.lookup "properties" with
  | some (.obj properties) =>
    if document.map Prod.fst = properties.map Prod.fst then some []
    else some ["properties differ"]
  | _ => some []

def engine : RunEngine where
  rt := .ascii
  validator := validator
  guard := fun _ _ => true
  broker := {
    catalog := ⟨[("read_evidence", readEvidence), ("save_note", saveNote)], by decide⟩
    named := by decide }
  handlers := ["read_evidence", "save_note"]
  assembler := none

def command : TurnCommand where
  organizationId := "org-buyer"
  actorId := "buyer-1"
  principal := .sira
  party := .buyer
  purpose := "software_selection"
  conversationId := "conversation-1"
  turnId := "turn-1"
  idempotencyKey := "submit-1"
  message := "Help us compare meeting assistants."
  availableTools := ["read_evidence", "save_note"]

def readCall (callId evidenceId : String) : ProposedToolCall where
  callId := callId
  toolName := "read_evidence"
  contractVersion := "v1"
  arguments := [("evidence_id", .str evidenceId)]

def noteCall : ProposedToolCall where
  callId := "call-note"
  toolName := "save_note"
  contractVersion := "v1"
  arguments := [("note", .str "Recordings stay in the EU.")]

def given (uuid : String) : TurnGiven where
  now := 1000
  uuid := fun _ => uuid

def decides (decision : TurnDecision) : TurnGiven :=
  { given "0" with model := .decision decision }

def answers (fields : List (String × Value)) : TurnGiven :=
  { given "0" with handler := .output fields }

end Sample

end CognitiveEngine

end SiraApi
