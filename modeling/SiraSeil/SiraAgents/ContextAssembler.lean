-- SUMMARY: Principal policies and the assembly of a context manifest: the tools that a command requests, as far as the policy of its principal allows them.
import SiraSeil.Library.Raising
import SiraSeil.SiraAgents.KernelModels

/-!
# The context assembler

`sira_agents/context_assembler.py`. The payload guard searches keys and texts for secrets; which
payloads it refuses is a parameter, since no result depends on it.
-/

namespace SiraAgents

open Domain Raising

/-- `validate_principal_payload`: the payload of a principal may be bound to a model. -/
abbrev PayloadGuard := List (String × Value) → Principal → Bool

structure PrincipalPolicy where
  principal : Principal
  party : Party
  purpose : String
  allowedTools : List String
  budget : TurnBudget

structure PolicyCatalog where
  policies : List PrincipalPolicy

/-- What assembling a context raises. -/
inductive AssemblyError
  | permission (message : String)
  | value (error : PyError)

/-- A policy is for a principal, a party and a purpose. -/
def PrincipalPolicy.IsFor (policy : PrincipalPolicy) (principal : Principal) (party : Party)
    (purpose : String) : Prop :=
  policy.principal = principal ∧ policy.party = party ∧ policy.purpose = purpose

instance (policy : PrincipalPolicy) (principal : Principal) (party : Party) (purpose : String) :
    Decidable (policy.IsFor principal party purpose) :=
  inferInstanceAs (Decidable (_ ∧ _))

/-- `resolve`: the one policy of a principal, a party and a purpose -/
def PolicyCatalog.resolve (catalog : PolicyCatalog) (principal : Principal) (party : Party)
    (purpose : String) : Except AssemblyError PrincipalPolicy :=
  match catalog.policies.filter (fun policy => policy.IsFor principal party purpose) with
  | [policy] => .ok policy
  | _ => .error (.permission "PRINCIPAL_POLICY_NOT_FOUND")

structure ContextAssembler where
  policies : PolicyCatalog

/-- The turn that a context is assembled for -/
structure TurnContext where
  principal : Principal
  party : Party
  organizationId : String
  actorId : String
  actorRoles : List String
  permissions : List String
  purpose : String
  conversationId : String
  turnId : String
  currentMessage : String
  recentMessages : List (List (String × Value))
  summary : Option String
  unresolvedQuestions : List String
  privateContext : List (String × Value)
  exchangeProjection : List (String × Value)
  requestedTools : List String

/-- The payload that is guarded before a model sees it -/
def TurnContext.guarded (turn : TurnContext) : List (String × Value) :=
  [("current_message", .str turn.currentMessage),
    ("recent_messages", .seq (turn.recentMessages.map .obj)), ("summary", .opt .str turn.summary),
    ("principal_context", .obj turn.privateContext),
    ("exchange_projection", .obj turn.exchangeProjection)]

/-- The manifest of a turn under a budget, before it is built -/
def TurnContext.manifest (turn : TurnContext) (actorRoles permissions availableTools : List String)
    (budget : TurnBudget) : ContextManifest where
  principal := turn.principal
  party := turn.party
  organizationId := turn.organizationId
  actorId := turn.actorId
  actorRoles := actorRoles
  permissions := permissions
  purpose := turn.purpose
  conversationId := turn.conversationId
  turnId := turn.turnId
  currentMessage := turn.currentMessage
  recentMessages := turn.recentMessages
  summary := turn.summary
  unresolvedQuestions := turn.unresolvedQuestions
  exchangeProjection :=
    [("private", .obj turn.privateContext), ("released", .obj turn.exchangeProjection)]
  availableTools := availableTools
  budget := budget

/-- A manifest is built and sealed. -/
def buildSealed (rt : Runtime) (m : ContextManifest) : Except AssemblyError ContextManifest :=
  (m.build rt >>= ContextManifest.sealed rt).mapError .value

/-- `assemble` -/
def ContextAssembler.assemble (rt : Runtime) (guard : PayloadGuard) (assembler : ContextAssembler)
    (turn : TurnContext) : Except AssemblyError ContextManifest := do
  let policy ← assembler.policies.resolve turn.principal turn.party turn.purpose
  let selected := Sorting.sortedSet (turn.requestedTools.filter (· ∈ policy.allowedTools))
  if guard turn.guarded turn.principal = false then
    throw (.value (.value "model payload crosses the boundary of its principal"))
  buildSealed rt (turn.manifest (Sorting.sortedSet turn.actorRoles)
    (Sorting.sortedSet turn.permissions) selected policy.budget)

/-! ## What is assembled -/

variable {rt : Runtime} {guard : PayloadGuard} {turn : TurnContext} {m m' : ContextManifest}

theorem buildSealed_eq_ok (h : buildSealed rt m = .ok m') :
    ∃ hash, m' = { m with manifestHash := some hash } := by
  unfold buildSealed at h
  cases hbuilt : m.build rt with
  | error e =>
    rw [hbuilt] at h
    cases h
  | ok built =>
    rw [hbuilt, ok_bind] at h
    cases hsealed : built.sealed rt with
    | error e =>
      rw [hsealed] at h
      cases h
    | ok result =>
      rw [hsealed] at h
      cases h
      obtain ⟨hash, -, rfl⟩ := ContextManifest.sealed_eq_ok hsealed
      rw [ContextManifest.build_eq_ok hbuilt]
      exact ⟨hash, rfl⟩

/-- A manifest is assembled under the one policy for its principal, with its budget and with the
    requested tools that it allows. -/
theorem assemble_eq_ok {assembler : ContextAssembler}
    (h : assembler.assemble rt guard turn = .ok m) :
    ∃ policy, assembler.policies.resolve turn.principal turn.party turn.purpose = .ok policy ∧
      ∃ roles permissions tools hash,
        (∀ name, name ∈ tools ↔ name ∈ turn.requestedTools ∧ name ∈ policy.allowedTools) ∧
          m = { turn.manifest roles permissions tools policy.budget with
            manifestHash := some hash } := by
  unfold ContextAssembler.assemble at h
  obtain ⟨policy, hpolicy, h⟩ := bind_eq_ok.mp h
  rw [unless_throw_eq_ok] at h
  obtain ⟨hash, rfl⟩ := buildSealed_eq_ok h.2
  refine ⟨policy, hpolicy, _, _, _, hash, fun name => ?_, rfl⟩
  rw [Sorting.mem_sortedSet, List.mem_filter, decide_eq_true_iff]

end SiraAgents
