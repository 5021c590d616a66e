-- SUMMARY: Tool policy before a model call and before an execution: which tools a manifest shows, and which proposed calls are authorized.
import SiraSeil.Library.Dict
import SiraSeil.Library.Raising
import SiraSeil.SiraAgents.KernelModels

/-!
# The tool broker

`sira_agents/tool_broker.py`. The schema validator is a package: what it finds wrong with a
document under a schema is a parameter, and it may raise on a schema of its own.
-/

namespace SiraAgents

open Domain Raising

/-- `sorted(Draft202012Validator(schema).iter_errors(document))`, or `none` where it raises -/
abbrev SchemaValidator := List (String × Value) → List (String × Value) → Option (List String)

/-- What the broker raises: `ToolDenied`, or what the validator raised. -/
inductive BrokerError
  | denied (reason : String)
  | raised
  deriving DecidableEq, Repr

/-- The tools of a kernel, under their names. -/
structure ToolBroker where
  catalog : Dict String ToolManifest
  named : ∀ entry ∈ catalog.items, entry.1 = entry.2.name

/-- A manifest shows a tool: it is available, for the principal, the party and the purpose of the
    manifest, at the stage. -/
def Shows (manifest : ContextManifest) (stage : String) (tool : ToolManifest) : Prop :=
  tool.name ∈ manifest.availableTools ∧ manifest.principal ∈ tool.allowedPrincipals ∧
    manifest.party ∈ tool.allowedParties ∧ manifest.purpose ∈ tool.purposes ∧
      stage ∈ tool.allowedStages

namespace ToolBroker

/-- `visible_tools` -/
def visibleTools (broker : ToolBroker) (manifest : ContextManifest) (stage : String) :
    List ToolManifest :=
  (broker.catalog.sortedItems.filter (fun entry =>
    entry.1 ∈ manifest.availableTools ∧ manifest.principal ∈ entry.2.allowedPrincipals ∧
      manifest.party ∈ entry.2.allowedParties ∧ manifest.purpose ∈ entry.2.purposes ∧
        stage ∈ entry.2.allowedStages)).map Prod.snd

/-- The tool of the catalog under a name -/
def toolNamed (broker : ToolBroker) (name : String) : Except BrokerError ToolManifest :=
  match broker.catalog.get? name with
  | some tool => .ok tool
  | none => .error (.denied "TOOL_NOT_VISIBLE")

/-- `validate_output` and the last check of `authorize` -/
def validate (validator : SchemaValidator) (schema document : List (String × Value))
    (reason : String) : Except BrokerError Unit :=
  match validator schema document with
  | none => .error .raised
  | some [] => .ok ()
  | some (_ :: _) => .error (.denied reason)

/-- `authorize`. A turn presents no capability, so that protected effects are denied. Tools are
    compared by their names, under which the catalog has one each. -/
def authorize (validator : SchemaValidator) (broker : ToolBroker) (call : ProposedToolCall)
    (manifest : ContextManifest) (stage : String) (mutationsUsed : Nat) :
    Except BrokerError ToolManifest := do
  let tool ← broker.toolNamed call.toolName
  if tool.name ∉ (broker.visibleTools manifest stage).map (·.name) then
    throw (.denied "TOOL_NOT_VISIBLE")
  if call.contractVersion ≠ tool.contractVersion then
    throw (.denied "TOOL_VERSION_MISMATCH")
  if tool.risk = .protectedEffect then
    throw (.denied "PROTECTED_EFFECT_REQUIRES_CAPABILITY")
  if tool.risk = .mutation ∧ manifest.budget.maxMutations ≤ mutationsUsed then
    throw (.denied "MUTATION_BUDGET_EXHAUSTED")
  validate validator tool.inputSchema call.arguments "TOOL_INPUT_INVALID"
  return tool

variable {validator : SchemaValidator} {broker : ToolBroker} {manifest : ContextManifest}
  {stage : String} {tool : ToolManifest}

theorem mem_visibleTools (h : tool ∈ broker.visibleTools manifest stage) :
    (tool.name, tool) ∈ broker.catalog.items ∧ Shows manifest stage tool := by
  unfold visibleTools at h
  obtain ⟨entry, hentry, rfl⟩ := List.mem_map.mp h
  obtain ⟨hmem, hshown⟩ := List.mem_filter.mp hentry
  have hmem : entry ∈ broker.catalog.items := Sorting.mem_sortedBy.mp hmem
  have hname := broker.named entry hmem
  have hshown := of_decide_eq_true hshown
  rw [hname] at hshown
  exact ⟨hname ▸ hmem, hshown⟩

theorem mem_visibleTools_of_shows (hmem : (tool.name, tool) ∈ broker.catalog.items)
    (h : Shows manifest stage tool) : tool ∈ broker.visibleTools manifest stage := by
  unfold visibleTools
  refine List.mem_map.mpr ⟨(tool.name, tool), List.mem_filter.mpr ⟨?_, decide_eq_true h⟩, rfl⟩
  exact Sorting.mem_sortedBy.mpr hmem

/-- What an authorized call is. -/
structure Authorizes (validator : SchemaValidator) (broker : ToolBroker) (call : ProposedToolCall)
    (manifest : ContextManifest) (stage : String) (mutationsUsed : Nat) (tool : ToolManifest) :
    Prop where
  named : call.toolName = tool.name
  listed : (tool.name, tool) ∈ broker.catalog.items
  shown : Shows manifest stage tool
  version : call.contractVersion = tool.contractVersion
  unprotected : tool.risk ≠ .protectedEffect
  inBudget : tool.risk = .mutation → mutationsUsed < manifest.budget.maxMutations
  valid : validator tool.inputSchema call.arguments = some []

theorem toolNamed_eq_ok {name : String} :
    broker.toolNamed name = .ok tool ↔ broker.catalog.get? name = some tool := by
  unfold toolNamed
  split <;> simp_all

theorem validate_eq_ok {schema document : List (String × Value)} {reason : String} :
    validate validator schema document reason = .ok () ↔ validator schema document = some [] := by
  unfold validate
  split <;> simp_all

/-- `authorize` returns a tool exactly where its call is authorized. -/
theorem authorize_eq_ok {call : ProposedToolCall} {mutationsUsed : Nat} :
    authorize validator broker call manifest stage mutationsUsed = .ok tool ↔
      Authorizes validator broker call manifest stage mutationsUsed tool := by
  constructor
  · intro h
    unfold authorize at h
    obtain ⟨found, hfound, h⟩ := bind_eq_ok.mp h
    have hfound : broker.catalog.get? call.toolName = some found := toolNamed_eq_ok.mp hfound
    simp only [unless_throw_eq_ok, not_not, check_bind_eq_ok, validate_eq_ok,
      pure_eq_ok] at h
    obtain ⟨hvisible, hversion, hunprotected, hbudget, hvalid, rfl⟩ := h
    have hmem := Dict.get?_eq_some_iff.mp hfound
    have hname : call.toolName = found.name := broker.named _ hmem
    -- Under the name of the tool there is no other one.
    obtain ⟨shown, hshown, hsame⟩ := List.mem_map.mp hvisible
    obtain ⟨hlisted, hshows⟩ := mem_visibleTools hshown
    rw [hname] at hfound
    rw [hsame] at hlisted
    have hget := Dict.get?_eq_some_iff.mpr hlisted
    obtain rfl : found = shown := Option.some.inj (hfound.symm.trans hget)
    exact ⟨hname, hlisted, hshows, hversion, hunprotected,
      fun hmutation => not_le.mp (fun hspent => hbudget ⟨hmutation, hspent⟩), hvalid⟩
  · rintro ⟨hname, hlisted, hshown, hversion, hunprotected, hbudget, hvalid⟩
    unfold authorize
    have hget : broker.catalog.get? call.toolName = some tool :=
      hname ▸ Dict.get?_eq_some_iff.mpr hlisted
    have hvisible : tool.name ∈ (broker.visibleTools manifest stage).map (·.name) :=
      List.mem_map_of_mem (mem_visibleTools_of_shows hlisted hshown)
    have hspent : ¬ (tool.risk = .mutation ∧ manifest.budget.maxMutations ≤ mutationsUsed) :=
      fun hover => absurd (hbudget hover.1) (not_lt.mpr hover.2)
    rw [toolNamed_eq_ok.mpr hget]
    simp only [ok_bind, hvisible, hversion, hunprotected, hspent, not_true_eq_false, ne_eq, if_false,
      validate_eq_ok.mpr hvalid]
    rfl

theorem not_authorizes_of_empty {call : ProposedToolCall} {mutationsUsed : Nat}
    (hempty : manifest.availableTools = []) :
    ¬ Authorizes validator broker call manifest stage mutationsUsed tool := by
  intro h
  have havailable := h.shown.1
  rw [hempty] at havailable
  cases havailable

end ToolBroker

end SiraAgents
