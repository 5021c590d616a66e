-- SUMMARY: When a tool call is executed at most once: while no call id is authorized again that was executed, or is about to be.
import SiraSeil.Library.Holding
import SiraSeil.SiraApi.TurnJournal

/-!
# Tool executions

Authorizing a call returns the invocation that its call id has, whatever the status of that is, and
the handler is invoked outside of any transaction. A call id is held from its authorization to the
invocation of its handler; the law below is the one of held keys.
-/

namespace SiraApi

namespace CognitiveEngine

open Domain Persistence SiraAgents

/-- A run and a call id -/
abbrev ToolKey := String × String

def ToolExecution.key (e : ToolExecution) : ToolKey :=
  (e.runId, e.callId)

/-- The calls that a handler was invoked for, in their order -/
def executed (s : EngineStore) : List ToolKey :=
  s.executions.map ToolExecution.key

/-- The call whose handler a process call invokes next -/
def executing (engine : RunEngine) : EngineCall → Option ToolKey
  | .process ⟨_, .execute a⟩ =>
    if a.tool.name ∈ engine.handlers then some (a.turn.runId, a.call.callId) else none
  | _ => none

/-- The proposed call is authorized and has a handler. -/
def grants (engine : RunEngine) (organizationId : String) (p : Proposed) (given : TurnGiven)
    (s : EngineStore) : Bool :=
  match engine.broker.authorize engine.validator p.call p.manifest stage p.turn.mutationsUsed with
  | .ok tool => tool.name ∈ engine.handlers && !given.unavailable &&
      (authorizeCall engine.rt organizationId p.turn.runId p.call tool given.toGiven
        s.journal).isOk
  | .error _ => false

/-- The call that a process call proposes to authorize next, for an organization -/
def proposing : EngineCall → Option (String × Proposed)
  | .process ⟨trace, .authorize p⟩ => some (trace.command.organizationId, p)
  | _ => none

/-- The world in which a call id is authorized has not executed it, and no call is about to. -/
def AuthorizesOnce (engine : RunEngine) (w : Interleaving.World EngineStore EngineCall) :
    Interleaving.Event EngineRequest TurnGiven → Prop
  | .advance i given => ∀ q ∈ w.calls[i]?.bind proposing,
      grants engine q.1 q.2 given w.store = true → (q.2.turn.runId, q.2.call.callId) ∉
        Interleaving.System.keys (executing engine) executed w
  | .start _ _ => True
  | .crash _ => True

instance (engine : RunEngine) (w : Interleaving.World EngineStore EngineCall) :
    (e : Interleaving.Event EngineRequest TurnGiven) → Decidable (AuthorizesOnce engine w e)
  | .advance _ _ => inferInstanceAs (Decidable (∀ q ∈ _, _))
  | .start _ _ => .isTrue trivial
  | .crash _ => .isTrue trivial

variable {engine : RunEngine}

variable {trace : Trace} {turn : Turn} {command : TurnCommand} {manifest : ContextManifest}

theorem executing_ends {failure : ToolFailure} :
    executing engine (.process ⟨trace, failure.ends turn⟩) = none := by
  cases failure <;> rfl

theorem executing_captured {run : CognitiveRun} {duplicate : Bool} :
    executing engine (.process ⟨trace, captured engine command run duplicate⟩) = none := by
  unfold captured
  split
  · rfl
  · split <;> rfl

theorem executing_decided {outcome : ModelOutcome} :
    executing engine (.process ⟨trace, decided command turn manifest outcome⟩) = none := by
  unfold decided
  split
  · rfl
  · rfl
  · split <;> rfl
  · rfl

theorem executing_proceed {calls : List ProposedToolCall} :
    executing engine (.process ⟨trace, proceed command turn manifest calls⟩) = none := by
  cases calls with
  | nil =>
    simp only [proceed, iterate]
    split <;> rfl
  | cons next rest => rfl

theorem executing_recorded {decision : TurnDecision} :
    executing engine (.process ⟨trace, recorded command turn manifest decision⟩) = none := by
  cases decision with
  | proposeTools batch => exact executing_proceed
  | _ => rfl

theorem executing_handled {a : Authorized} {outcome : HandlerOutcome} :
    executing engine (.process ⟨trace, handled engine.validator a outcome⟩) = none := by
  unfold handled
  split
  · split <;> rfl
  · rfl
  · rfl
  · rfl

/-- A step executes the call that it holds, takes one that is authorized, or holds none after it. -/
theorem handles_advance (w : Interleaving.World EngineStore EngineCall) (call : ProcessCall)
    (given : TurnGiven) (honce : ∀ p, call.phase = .authorize p →
      grants engine call.command.organizationId p given w.store = true →
        (p.turn.runId, p.call.callId) ∉
          Interleaving.System.keys (executing engine) executed w) :
    Interleaving.System.Handles (executing engine) executed w (.process call)
      (.process (advance engine call given w.store).1) (advance engine call given w.store).2 := by
  obtain ⟨trace, phase⟩ := call
  have hcommits : ∀ {α : Type} (work : Journal → Qualified (α × Journal)) (returns : α → Phase)
      (raises : QualificationError → Phase),
      (∀ a, executing engine (.process ⟨trace, returns a⟩) = none) →
      (∀ e, executing engine (.process ⟨trace, raises e⟩) = none) →
      Interleaving.System.Handles (executing engine) executed w (.process ⟨trace, phase⟩)
        (.process (commits ⟨trace, phase⟩ w.store given work returns raises).1)
        (commits ⟨trace, phase⟩ w.store given work returns raises).2 := by
    intro α work returns raises hreturns hraises
    exact commits_induction (P := fun r => Interleaving.System.Handles (executing engine) executed w
      (.process ⟨trace, phase⟩) (.process r.1) r.2) (fun e _ => .drops (hraises e) rfl)
      (fun a _ _ => .drops (hreturns a) rfl)
  cases phase with
  | capture => exact hcommits _ _ _ (fun _ => executing_captured) (fun _ => rfl)
  | existing runId => exact hcommits _ _ _ (fun _ => rfl) (fun _ => rfl)
  | bind turn => exact hcommits _ _ _ (fun _ => rfl) (fun _ => rfl)
  | decide turn =>
    simp only [advance]
    split
    · exact .drops rfl rfl
    · exact .drops executing_decided rfl
  | record turn manifest decision =>
    exact hcommits _ _ _ (fun _ => executing_recorded) (fun _ => rfl)
  | authorize p =>
    have hgranted := honce p rfl
    simp only [advance]
    split
    · exact .drops executing_ends rfl
    · next tool htool =>
      unfold commits
      split
      · exact .drops executing_ends rfl
      · next hup =>
        split
        · next invocationId journal hwork =>
          by_cases hhandled : tool.name ∈ engine.handlers
          · refine .takes (p.turn.runId, p.call.callId) (hgranted ?_) rfl (if_pos hhandled) rfl
            unfold grants
            rw [htool]
            have hwork : (authorizeCall engine.rt trace.command.organizationId p.turn.runId p.call
                tool given.toGiven w.store.journal).isOk = true := by
              rw [hwork]
              rfl
            simp [hhandled, hup, hwork]
          · exact .drops (if_neg hhandled) rfl
        · exact .drops executing_ends rfl
  | execute a =>
    simp only [advance]
    split
    · next hhandled =>
      exact .logs (a.turn.runId, a.call.callId) (if_pos hhandled) rfl (List.map_append ..)
    · exact .drops rfl rfl
  | handle a => exact .drops executing_handled rfl
  | complete a output => exact hcommits _ _ _ (fun _ => executing_proceed) (fun _ => rfl)
  | failTool turn invocationId failure =>
    exact hcommits _ _ _ (fun _ => executing_ends) (fun _ => rfl)
  | finish ending => exact hcommits _ _ _ (fun _ => rfl) (fun _ => rfl)
  | returned result => exact .keeps rfl rfl
  | raised error => exact .keeps rfl rfl

namespace Sample

def reader : RunEngine :=
  { Sample.engine with
    broker := {
      catalog := ⟨[("read_evidence", readEvidence)], by decide⟩
      named := by decide }
    handlers := ["read_evidence"] }

/-- The model proposes the same call twice. -/
def twice : TurnDecision :=
  .proposeTools ⟨[readCall "call-1" "evidence-1", readCall "call-1" "evidence-1"], by decide⟩

/-- A turn up to the execution of the second call -/
def twiceGivens : List TurnGiven :=
  [given "1", given "2", decides twice, given "3", given "4", given "5",
    answers [("claim", .str "EU only.")], given "6", given "7", given "8"]

end Sample

end CognitiveEngine

end SiraApi
