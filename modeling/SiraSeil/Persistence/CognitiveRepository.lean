-- SUMMARY: The journal of contextual turns: runs under idempotency keys, their steps, and the requests and results of their tools.
import SiraSeil.Library.Raising
import SiraSeil.Library.Table
import SiraSeil.Persistence.QualificationRepository
import SiraSeil.SiraAgents.KernelModels

/-!
# The cognitive journal

`persistence/cognitive_repository.py`. Checkpoints and user events are only ever appended, and no
step of a turn reads them, so that they are left out.
-/

namespace Persistence

open Domain SiraAgents

/-! ## Rows -/

inductive RunStatus
  | captured | deciding | executing | waiting | completed | failed | cancelled
  deriving DecidableEq, Repr

inductive InvocationStatus
  | requested | authorized | running | completed | denied | failed | cancelled
  deriving DecidableEq, Repr

structure CognitiveRun where
  id : String
  organizationId : String
  principal : String
  actorId : String
  conversationId : String
  turnId : String
  idempotencyKey : String
  purpose : String
  inputText : String
  inputHash : String
  manifestHash : Option String
  status : RunStatus
  version : Nat
  budget : TurnBudget
  failureCode : Option String
  cancelledAt : Option Int

structure CognitiveStep where
  organizationId : String
  runId : String
  sequence : Nat
  kind : String
  status : String
  payload : List (String × Value)
  payloadHash : String

structure CognitiveToolInvocation where
  id : String
  organizationId : String
  runId : String
  callId : String
  toolName : String
  contractVersion : String
  risk : ToolRisk
  arguments : List (String × Value)
  argumentsHash : String
  status : InvocationStatus
  output : Option (List (String × Value))
  outputHash : Option String
  safeErrorCode : Option String

structure Journal where
  runs : List CognitiveRun := []
  steps : List CognitiveStep := []
  invocations : List CognitiveToolInvocation := []

/-- Statuses that `finish` and `cancel` leave as they are -/
def RunStatus.Final (status : RunStatus) : Prop :=
  status = .completed ∨ status = .failed ∨ status = .cancelled

instance (status : RunStatus) : Decidable status.Final :=
  inferInstanceAs (Decidable (_ ∨ _))

namespace Journal

variable (organizationId : String)

def updateRun (id : String) (f : CognitiveRun → CognitiveRun) (j : Journal) : Journal :=
  { j with runs := Table.update (·.id) id f j.runs }

def updateInvocation (id : String) (f : CognitiveToolInvocation → CognitiveToolInvocation)
    (j : Journal) : Journal :=
  { j with invocations := Table.update (·.id) id f j.invocations }

/-- `get` -/
def get (runId : String) (j : Journal) : Qualified CognitiveRun :=
  match j.runs.find? (fun r => r.organizationId = organizationId ∧ r.id = runId) with
  | some run => .ok run
  | none => .error (.recordNotFound "cognitive run was not found")

/-- `append_step` -/
def appendStep (rt : Runtime) (runId kind status : String) (payload : List (String × Value))
    (j : Journal) : Qualified Journal := do
  let payloadHash ← contentDigest rt (.obj payload)
  let sequences := (j.steps.filter (fun s =>
    s.organizationId = organizationId ∧ s.runId = runId)).map (·.sequence)
  return { j with steps := j.steps ++ [{
    organizationId := organizationId
    runId := runId
    sequence := sequences.foldr max 0 + 1
    kind := kind
    status := status
    payload := payload
    payloadHash := payloadHash }] }

/-! ## Runs -/

/-- What a turn is captured from -/
structure Input where
  principal : Principal
  actorId : String
  conversationId : String
  turnId : String
  idempotencyKey : String
  purpose : String
  inputText : String
  budget : TurnBudget

/-- The hash of an input covers neither its key nor its budget. -/
def Input.toValue (input : Input) : Value :=
  .obj [("principal", .str input.principal.value), ("actor_id", .str input.actorId),
    ("conversation_id", .str input.conversationId), ("turn_id", .str input.turnId),
    ("purpose", .str input.purpose), ("input_text", .str input.inputText)]

/-- The run of an actor under a key -/
def keyedRun (actorId idempotencyKey : String) (j : Journal) : Option CognitiveRun :=
  j.runs.find? (fun r => r.organizationId = organizationId ∧ r.actorId = actorId ∧
    r.idempotencyKey = idempotencyKey)

/-- `capture` -/
def capture (rt : Runtime) (input : Input) (given : Given) (j : Journal) :
    Qualified (CognitiveRun × Journal) := do
  let requestHash ← contentDigest rt input.toValue
  match j.keyedRun organizationId input.actorId input.idempotencyKey with
  | some existing =>
    if existing.inputHash ≠ requestHash then
      throw (.persistenceConflict "idempotency key was reused with different input")
    return (existing, j)
  | none =>
    let run : CognitiveRun := {
      id := "crun_" ++ given.uuid "crun"
      organizationId := organizationId
      principal := input.principal.value
      actorId := input.actorId
      conversationId := input.conversationId
      turnId := input.turnId
      idempotencyKey := input.idempotencyKey
      purpose := input.purpose
      inputText := input.inputText
      inputHash := requestHash
      manifestHash := none
      status := .captured
      version := 1
      budget := input.budget
      failureCode := none
      cancelledAt := none }
    constrain (j.runs.any (fun r => r.id = run.id)) "cognitive_runs_pkey"
    constrain (j.runs.any (fun r => r.organizationId = run.organizationId ∧
      r.conversationId = run.conversationId ∧ r.turnId = run.turnId)) "uq_cognitive_run_turn"
    let j ← { j with runs := j.runs ++ [run] }.appendStep organizationId rt run.id "INPUT" "RECORDED"
      [("input_hash", .str requestHash)]
    return (run, j)

/-- `bind_manifest` -/
def bindManifest (rt : Runtime) (run : CognitiveRun) (manifest : ContextManifest) (j : Journal) :
    Qualified Journal := do
  let hash ← (manifest.calculateHash rt).mapError .domain
  if manifest.manifestHash ≠ some hash then
    throw (.persistenceConflict "only a sealed context manifest can be bound")
  if manifest.principal.value ≠ run.principal ∨ manifest.actorId ≠ run.actorId then
    throw (.persistenceConflict "context principal does not own this run")
  return j.updateRun run.id (fun r => { r with
    manifestHash := manifest.manifestHash
    status := .deciding
    version := r.version + 1 })

/-- `record_decision` -/
def recordDecision (rt : Runtime) (run : CognitiveRun) (decision : TurnDecision) (j : Journal) :
    Qualified Journal := do
  let j ← j.appendStep organizationId rt run.id "DECISION" "RECORDED" decision.payload
  return j.updateRun run.id (fun r => { r with version := r.version + 1 })

/-- `finish` -/
def finish (rt : Runtime) (run : CognitiveRun) (status : RunStatus) (message : String)
    (failureCode : Option String) (j : Journal) : Qualified Journal :=
  if run.status.Final then .ok j
  else do
    let j ← j.appendStep organizationId rt run.id
      (if status = .failed then "FAILURE" else "OUTPUT")
      (if status = .failed then "FAILED" else "COMPLETED")
      [("message", .str message), ("failure_code", .opt .str failureCode)]
    return j.updateRun run.id (fun r => { r with
      status := status
      failureCode := failureCode
      version := r.version + 1 })

/-- `cancel` -/
def cancel (run : CognitiveRun) (given : Given) (j : Journal) : Journal :=
  if run.status.Final then j
  else j.updateRun run.id (fun r => { r with
    status := .cancelled
    cancelledAt := some given.now
    version := r.version + 1 })

/-! ## Tools -/

/-- The invocation of a run under a call id -/
def invocation? (runId callId : String) (j : Journal) : Option CognitiveToolInvocation :=
  j.invocations.find? (fun i => i.organizationId = organizationId ∧ i.runId = runId ∧
    i.callId = callId)

/-- `request_tool` -/
def requestTool (rt : Runtime) (run : CognitiveRun) (call : ProposedToolCall) (risk : ToolRisk)
    (given : Given) (j : Journal) : Qualified (CognitiveToolInvocation × Journal) := do
  let argumentsHash ← contentDigest rt (.obj call.arguments)
  match j.invocation? organizationId run.id call.callId with
  | some existing =>
    if existing.argumentsHash ≠ argumentsHash then
      throw (.persistenceConflict "tool call id was reused with different arguments")
    return (existing, j)
  | none =>
    let invocation : CognitiveToolInvocation := {
      id := "ctool_" ++ given.uuid "ctool"
      organizationId := organizationId
      runId := run.id
      callId := call.callId
      toolName := call.toolName
      contractVersion := call.contractVersion
      risk := risk
      arguments := call.arguments
      argumentsHash := argumentsHash
      status := .requested
      output := none
      outputHash := none
      safeErrorCode := none }
    constrain (j.invocations.any (fun i => i.id = invocation.id)) "cognitive_tool_invocations_pkey"
    return (invocation, { j with invocations := j.invocations ++ [invocation] })

/-- `authorize_tool` -/
def authorizeTool (invocation : CognitiveToolInvocation) (j : Journal) : Journal :=
  if invocation.status = .requested then
    j.updateInvocation invocation.id (fun i => { i with status := .authorized })
  else j

/-- `complete_tool`, with the output hash that the row has then -/
def completeTool (rt : Runtime) (invocation : CognitiveToolInvocation)
    (output : List (String × Value)) (j : Journal) : Qualified (String × Journal) := do
  let outputHash ← contentDigest rt (.obj output)
  if invocation.status = .completed then
    if invocation.outputHash ≠ some outputHash then
      throw (.persistenceConflict "tool call already completed with another result")
    return (outputHash, j)
  else if invocation.status ≠ .authorized ∧ invocation.status ≠ .running then
    throw (.persistenceConflict "tool call is not authorized for completion")
  else
    return (outputHash, j.updateInvocation invocation.id (fun i => { i with
      status := .completed
      output := some output
      outputHash := some outputHash }))

/-- `fail_tool` -/
def failTool (invocation : CognitiveToolInvocation) (safeErrorCode : String) (j : Journal) :
    Qualified Journal :=
  if invocation.status = .completed then
    .error (.persistenceConflict "completed tool call cannot fail")
  else .ok (j.updateInvocation invocation.id (fun i => { i with
    status := .failed
    safeErrorCode := some safeErrorCode }))

/-- `next(item for item in snapshot.tools if item.id == invocation_id)` -/
def snapshotTool (run : CognitiveRun) (invocationId : String) (j : Journal) :
    Qualified CognitiveToolInvocation :=
  match j.invocations.find? (fun i => i.organizationId = organizationId ∧ i.runId = run.id ∧
      i.id = invocationId) with
  | some invocation => .ok invocation
  | none => .error (.runtimeError "coroutine raised StopIteration")

end Journal

end Persistence
