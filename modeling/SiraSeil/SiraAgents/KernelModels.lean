-- SUMMARY: Contracts of the cognitive kernel: budgets, sealed context manifests, tool manifests and the typed decisions of a model.
import SiraSeil.Domain.Values

/-!
# Kernel models

`sira_agents/kernel_models.py`. Ranges of a budget and the size of a batch are fields of their
records; the bounds on the sizes of a context are checked when it is built, since a caller's data
may exceed them. Patterns and lengths of texts that no step of a turn reads are left out.
-/

namespace SiraAgents

open Domain

/-! ## Principals -/

inductive Principal
  | sira | seil
  deriving DecidableEq, Repr

def Principal.value : Principal → String
  | sira => "SIRA"
  | seil => "SEIL"

inductive Party
  | buyer | seller
  deriving DecidableEq, Repr

def Party.value : Party → String
  | buyer => "BUYER"
  | seller => "SELLER"

/-- The party that a principal acts for -/
def Principal.party : Principal → Party
  | sira => .buyer
  | seil => .seller

inductive ToolRisk
  | read | mutation | protectedEffect
  deriving DecidableEq, Repr

def ToolRisk.value : ToolRisk → String
  | read => "read"
  | mutation => "mutation"
  | protectedEffect => "protected_effect"

inductive FailureCode
  | invalidDecision | budgetExhausted | toolDenied | toolTimeout | cancelled | providerUnavailable
  | staleContext
  deriving DecidableEq, Repr

def FailureCode.value : FailureCode → String
  | invalidDecision => "INVALID_DECISION"
  | budgetExhausted => "BUDGET_EXHAUSTED"
  | toolDenied => "TOOL_DENIED"
  | toolTimeout => "TOOL_TIMEOUT"
  | cancelled => "CANCELLED"
  | providerUnavailable => "PROVIDER_UNAVAILABLE"
  | staleContext => "STALE_CONTEXT"

/-! ## Budgets -/

structure TurnBudget where
  maxModelCalls : Nat := 3
  maxParallelReads : Nat := 4
  maxMutations : Nat := 1
  maxInputTokens : Nat := 12000
  maxOutputTokens : Nat := 2048
  timeoutSeconds : ℚ := 90
  maxCostUsd : ℚ := 1 / 4
  modelCalls : 1 ≤ maxModelCalls ∧ maxModelCalls ≤ 3 := by decide
  parallelReads : 1 ≤ maxParallelReads ∧ maxParallelReads ≤ 4 := by decide
  mutations : maxMutations ≤ 1 := by decide
  inputTokens : 1 ≤ maxInputTokens ∧ maxInputTokens ≤ 100000 := by decide
  outputTokens : 1 ≤ maxOutputTokens ∧ maxOutputTokens ≤ 8192 := by decide
  timeout : 0 < timeoutSeconds ∧ timeoutSeconds ≤ 300 := by decide
  cost : 0 ≤ maxCostUsd ∧ maxCostUsd ≤ 10 := by decide +kernel

def TurnBudget.toValue (b : TurnBudget) : Value :=
  .obj [("max_model_calls", .nat b.maxModelCalls), ("max_parallel_reads", .nat b.maxParallelReads),
    ("max_mutations", .nat b.maxMutations), ("max_input_tokens", .nat b.maxInputTokens),
    ("max_output_tokens", .nat b.maxOutputTokens), ("timeout_seconds", .ratio b.timeoutSeconds),
    ("max_cost_usd", .ratio b.maxCostUsd)]

/-! ## Tools -/

structure ToolManifest where
  name : String
  contractVersion : String
  description : String
  allowedPrincipals : List Principal
  allowedParties : List Party
  purposes : List String
  allowedStages : List String
  risk : ToolRisk
  inputSchema : List (String × Value)
  outputSchema : List (String × Value)
  timeoutSeconds : ℚ

/-- What a manifest says of a tool to the model -/
def ToolManifest.contract (tool : ToolManifest) : List (String × Value) :=
  [("name", .str tool.name), ("contract_version", .str tool.contractVersion),
    ("description", .str tool.description), ("risk", .str tool.risk.value),
    ("input_schema", .obj tool.inputSchema)]

/-! ## Context manifests -/

/-- The context of one model call. A turn has no references to other objects. -/
structure ContextManifest where
  principal : Principal
  party : Party
  organizationId : String
  actorId : String
  actorRoles : List String
  permissions : List String
  purpose : String
  conversationId : String
  turnId : String
  currentMessage : String
  recentMessages : List (List (String × Value))
  summary : Option String
  unresolvedQuestions : List String
  exchangeProjection : List (String × Value)
  availableTools : List String
  toolContracts : List (List (String × Value)) := []
  budget : TurnBudget
  manifestHash : Option String := none

namespace ContextManifest

/-- The bounds on the fields of a manifest -/
def fits (m : ContextManifest) : Bool :=
  let within (text : String) (bound : Nat) := 1 ≤ text.length && text.length ≤ bound
  within m.organizationId 100 && within m.actorId 100 && m.actorRoles.length ≤ 32 &&
    m.permissions.length ≤ 64 && within m.purpose 100 && within m.conversationId 128 &&
    within m.turnId 128 && within m.currentMessage 16000 && m.recentMessages.length ≤ 20 &&
    m.summary.all (fun text => text.length ≤ 8000) && m.unresolvedQuestions.length ≤ 8 &&
    m.availableTools.length ≤ 32 && m.toolContracts.length ≤ 32

def toValue (m : ContextManifest) : Value :=
  .obj [("principal", .str m.principal.value), ("party", .str m.party.value),
    ("organization_id", .str m.organizationId), ("actor_id", .str m.actorId),
    ("actor_roles", .strs m.actorRoles), ("permissions", .strs m.permissions),
    ("purpose", .str m.purpose), ("conversation_id", .str m.conversationId),
    ("turn_id", .str m.turnId), ("current_message", .str m.currentMessage),
    ("recent_messages", .seq (m.recentMessages.map .obj)), ("summary", .opt .str m.summary),
    ("unresolved_questions", .strs m.unresolvedQuestions), ("references", .seq []),
    ("exchange_projection", .obj m.exchangeProjection),
    ("available_tools", .strs m.availableTools),
    ("tool_contracts", .seq (m.toolContracts.map .obj)), ("budget", m.budget.toValue)]

/-- `calculate_hash` -/
def calculateHash (rt : Runtime) (m : ContextManifest) : Py String :=
  contentHash rt m.toValue

/-- A manifest is built from fields within their bounds, for the party of its principal. -/
def build (rt : Runtime) (m : ContextManifest) : Py ContextManifest :=
  if m.fits = false then .error (.value "context manifest field is out of range")
  else if m.party ≠ m.principal.party then
    .error (.value "context principal and party do not match")
  else (m.calculateHash rt).map (fun _ => m)

/-- `sealed` -/
def sealed (rt : Runtime) (m : ContextManifest) : Py ContextManifest :=
  (m.calculateHash rt).map (fun hash => { m with manifestHash := some hash })

theorem build_eq_ok {rt : Runtime} {m m' : ContextManifest} (h : m.build rt = .ok m') : m' = m := by
  unfold build at h
  split at h
  · cases h
  · split at h
    · cases h
    · cases hhash : m.calculateHash rt with
      | error e =>
        rw [hhash] at h
        cases h
      | ok hash =>
        rw [hhash] at h
        cases h
        rfl

theorem sealed_eq_ok {rt : Runtime} {m m' : ContextManifest} (h : m.sealed rt = .ok m') :
    ∃ hash, m.calculateHash rt = .ok hash ∧ m' = { m with manifestHash := some hash } := by
  unfold sealed at h
  cases hhash : m.calculateHash rt with
  | error e =>
    rw [hhash] at h
    cases h
  | ok hash =>
    rw [hhash] at h
    cases h
    exact ⟨hash, rfl, rfl⟩

end ContextManifest

/-! ## Decisions -/

structure ProposedToolCall where
  callId : String
  toolName : String
  contractVersion : String
  arguments : List (String × Value)

/-- A batch of tool calls, one to four of them -/
structure ProposeTools where
  calls : List ProposedToolCall
  size : 1 ≤ calls.length ∧ calls.length ≤ 4

structure FailSafely where
  code : FailureCode
  message : String
  retryable : Bool

inductive TurnDecision
  | respond (message : String)
  | clarify (question reason : String)
  | proposeTools (batch : ProposeTools)
  | requestApproval (action summary payloadHash : String)
  | waitForExternal (reason : String)
  | complete (message : String)
  | failSafely (failure : FailSafely)

def ProposedToolCall.toValue (call : ProposedToolCall) : Value :=
  .obj [("call_id", .str call.callId), ("tool_name", .str call.toolName),
    ("contract_version", .str call.contractVersion), ("arguments", .obj call.arguments)]

/-- `model_dump` of a decision -/
def TurnDecision.payload : TurnDecision → List (String × Value)
  | respond message => [("kind", .str "respond"), ("message", .str message)]
  | clarify question reason =>
    [("kind", .str "clarify"), ("question", .str question), ("reason", .str reason)]
  | proposeTools batch =>
    [("kind", .str "propose_tools"), ("calls", .seq (batch.calls.map ProposedToolCall.toValue))]
  | requestApproval action summary payloadHash =>
    [("kind", .str "request_approval"), ("action", .str action), ("summary", .str summary),
      ("payload_hash", .str payloadHash)]
  | waitForExternal reason => [("kind", .str "wait_for_external"), ("reason", .str reason)]
  | complete message => [("kind", .str "complete"), ("message", .str message)]
  | failSafely failure =>
    [("kind", .str "fail_safely"), ("code", .str failure.code.value),
      ("message", .str failure.message), ("retryable", .bool failure.retryable)]

end SiraAgents
