-- SUMMARY: What each transaction of a turn needs of the journal, and which runs and invocations it changes.
import SiraSeil.SiraApi.CognitiveEngine

/-!
# The journal under a turn

For every transaction: an inversion lemma that says what a commit changed, and the condition under
which it commits.
-/

namespace Persistence

open Domain SiraAgents

namespace Journal

/-- Runs and invocations have ids of their own. -/
structure Keyed (j : Journal) : Prop where
  runs : Table.Keyed (·.id) j.runs
  invocations : Table.Keyed (·.id) j.invocations

variable {j j' : Journal} {organizationId runId : String} {run : CognitiveRun} {rt : Runtime}

theorem keyed_empty : Keyed {} :=
  ⟨Table.keyed_nil, Table.keyed_nil⟩

theorem get_eq_ok (h : j.get organizationId runId = .ok run) :
    run ∈ j.runs ∧ run.organizationId = organizationId ∧ run.id = runId := by
  unfold get at h
  split at h
  · next found hfound =>
    cases h
    have hmatch := List.find?_some hfound
    exact ⟨List.mem_of_find?_eq_some hfound, of_decide_eq_true hmatch⟩
  · cases h

theorem Keyed.get (hkeyed : j.Keyed) (hrun : run ∈ j.runs) :
    j.get run.organizationId run.id = .ok run := by
  have hfound : j.runs.find? (fun r => r.organizationId = run.organizationId ∧ r.id = run.id) =
      some run :=
    hkeyed.runs.find?_eq hrun (decide_eq_true ⟨rfl, rfl⟩)
      (fun r _ hr => (of_decide_eq_true hr).2)
  unfold Journal.get
  rw [hfound]

theorem get_update {f : CognitiveRun → CognitiveRun} {id : String}
    (hruns : j'.runs = Table.update (·.id) id f j.runs)
    (hf : ∀ r, (f r).organizationId = r.organizationId ∧ (f r).id = r.id)
    (h : j.get organizationId runId = .ok run) :
    j'.get organizationId runId = .ok (if run.id = id then f run else run) := by
  have hfound : j.runs.find? (fun r => r.organizationId = organizationId ∧ r.id = runId) =
      some run := by
    unfold Journal.get at h
    split at h
    · next found hfound =>
      cases h
      exact hfound
    · cases h
  unfold Journal.get
  rw [hruns, Table.find?_update (fun r => by rw [(hf r).1, (hf r).2]), hfound]
  rfl

theorem get_append {added : List CognitiveRun} (hruns : j'.runs = j.runs ++ added)
    (h : j.get organizationId runId = .ok run) : j'.get organizationId runId = .ok run := by
  unfold Journal.get at h ⊢
  split at h
  · next found hfound =>
    rw [hruns, List.find?_append, hfound]
    exact h
  · cases h

theorem Keyed.get_unique (hkeyed : j.Keyed) {row : CognitiveRun}
    (hrow : j.get organizationId runId = .ok row) (hrun : run ∈ j.runs) (hid : run.id = runId) :
    run = row := by
  obtain ⟨hmem, -, hrowId⟩ := get_eq_ok hrow
  exact hkeyed.runs.eq hrun hmem (hid.trans hrowId.symm)

theorem appendStep_eq_ok {kind status : String} {payload : List (String × Value)}
    (h : j.appendStep organizationId rt runId kind status payload = .ok j') :
    (Value.obj payload).Canonical ∧ j'.runs = j.runs ∧ j'.invocations = j.invocations := by
  unfold appendStep at h
  obtain ⟨hash, hhash, h⟩ := Raising.bind_eq_ok.mp h
  cases h
  exact ⟨(contentDigest_eq_ok.mp hhash).1, rfl, rfl⟩

theorem exists_appendStep (j : Journal) (organizationId : String) (rt : Runtime)
    (runId kind status : String) {payload : List (String × Value)}
    (h : (Value.obj payload).Canonical) :
    ∃ j', j.appendStep organizationId rt runId kind status payload = .ok j' := by
  obtain ⟨hash, hhash⟩ := (exists_contentDigest_eq_ok rt).mpr h
  unfold appendStep
  rw [hhash]
  exact ⟨_, rfl⟩

/-! ## Capture -/

theorem Input.canonical (input : Input) : input.toValue.Canonical := by
  simp [Input.toValue]

/-- The run that a capture creates -/
def newRun (organizationId : String) (input : Input) (given : Given) (requestHash : String) :
    CognitiveRun where
  id := "crun_" ++ given.uuid "crun"
  organizationId := organizationId
  principal := input.principal.value
  actorId := input.actorId
  conversationId := input.conversationId
  turnId := input.turnId
  idempotencyKey := input.idempotencyKey
  purpose := input.purpose
  inputText := input.inputText
  inputHash := requestHash
  manifestHash := none
  status := .captured
  version := 1
  budget := input.budget
  failureCode := none
  cancelledAt := none

/-- A capture finds the run of its key with the same input, or a turn without a run. -/
def Capturable (rt : Runtime) (organizationId : String) (input : Input) (j : Journal) : Prop :=
  match j.keyedRun organizationId input.actorId input.idempotencyKey with
  | some existing => contentDigest rt input.toValue = .ok existing.inputHash
  | none => ∀ r ∈ j.runs, ¬ (r.organizationId = organizationId ∧
      r.conversationId = input.conversationId ∧ r.turnId = input.turnId)

theorem keyedRun_eq_some {actorId idempotencyKey : String}
    (h : j.keyedRun organizationId actorId idempotencyKey = some run) :
    run ∈ j.runs ∧ run.organizationId = organizationId ∧ run.actorId = actorId := by
  unfold keyedRun at h
  have hmatch := List.find?_some h
  obtain ⟨horg, hactor, -⟩ := of_decide_eq_true hmatch
  exact ⟨List.mem_of_find?_eq_some h, horg, hactor⟩

theorem capture_eq_ok {input : Input} {given : Given}
    (h : j.capture organizationId rt input given = .ok (run, j')) :
    j.Capturable rt organizationId input ∧
      (j.keyedRun organizationId input.actorId input.idempotencyKey = some run ∧ j' = j ∨
        j.keyedRun organizationId input.actorId input.idempotencyKey = none ∧
          (∃ hash, run = newRun organizationId input given hash) ∧ (∀ r ∈ j.runs, r.id ≠ run.id) ∧
            j'.runs = j.runs ++ [run] ∧ j'.invocations = j.invocations) := by
  unfold capture at h
  obtain ⟨hash, hhash, h⟩ := Raising.bind_eq_ok.mp h
  unfold Capturable
  split at h
  · next existing hexisting =>
    simp only [Raising.unless_throw_eq_ok, not_not, Raising.pure_eq_ok] at h
    obtain ⟨hsame, hresult⟩ := h
    cases hresult
    rw [hexisting]
    refine ⟨?_, .inl ⟨rfl, rfl⟩⟩
    show contentDigest rt input.toValue = .ok run.inputHash
    rw [hhash, hsame]
  · next hnone =>
    simp only [Raising.check_bind_eq_ok, constrain_eq_ok] at h
    obtain ⟨hid, hturn, h⟩ := h
    obtain ⟨appended, hstep, h⟩ := Raising.bind_eq_ok.mp h
    cases h
    obtain ⟨-, hruns, hinvocations⟩ := appendStep_eq_ok hstep
    rw [hnone]
    refine ⟨fun r hr hsame => ?_, .inr ⟨rfl, ⟨hash, rfl⟩, fun r hr hsame => ?_, hruns, hinvocations⟩⟩
    · exact List.any_eq_false.mp hturn r hr (decide_eq_true hsame)
    · exact List.any_eq_false.mp hid r hr (decide_eq_true hsame)

theorem exists_capture {input : Input} {given : Given}
    (h : j.Capturable rt organizationId input)
    (hfresh : ∀ r ∈ j.runs, r.id ≠ "crun_" ++ given.uuid "crun") :
    ∃ result, j.capture organizationId rt input given = .ok result := by
  obtain ⟨hash, hhash⟩ := (exists_contentDigest_eq_ok rt).mpr input.canonical
  unfold capture
  unfold Capturable at h
  rw [hhash, Raising.ok_bind]
  cases hexisting : j.keyedRun organizationId input.actorId input.idempotencyKey with
  | some existing =>
    rw [hexisting, hhash] at h
    refine ⟨(existing, j), ?_⟩
    simp only [Raising.unless_throw_eq_ok, not_not, Raising.pure_eq_ok, and_true]
    exact (Except.ok.inj h).symm
  | none =>
    rw [hexisting] at h
    have hid : (j.runs.any (fun r => r.id = "crun_" ++ given.uuid "crun")) = false :=
      List.any_eq_false.mpr (fun r hr hsame => hfresh r hr (of_decide_eq_true hsame))
    have hturn : (j.runs.any (fun r => r.organizationId = organizationId ∧
        r.conversationId = input.conversationId ∧ r.turnId = input.turnId)) = false :=
      List.any_eq_false.mpr (fun r hr hsame => h r hr (of_decide_eq_true hsame))
    have hpayload : (Value.obj [("input_hash", .str hash)]).Canonical := by simp
    obtain ⟨appended, hstep⟩ := exists_appendStep
      { j with runs := j.runs ++ [newRun organizationId input given hash] } organizationId rt
      ("crun_" ++ given.uuid "crun") "INPUT" "RECORDED" hpayload
    refine ⟨(newRun organizationId input given hash, appended), ?_⟩
    simp only [Raising.check_bind_eq_ok, constrain_eq_ok]
    refine ⟨hid, hturn, ?_⟩
    exact Raising.bind_eq_ok.mpr ⟨appended, hstep, rfl⟩

/-! ## Changes of rows -/

def bound (manifest : ContextManifest) (r : CognitiveRun) : CognitiveRun :=
  { r with
    manifestHash := manifest.manifestHash
    status := .deciding
    version := r.version + 1 }

def revised (r : CognitiveRun) : CognitiveRun :=
  { r with version := r.version + 1 }

def ended (status : RunStatus) (failureCode : Option String) (r : CognitiveRun) : CognitiveRun :=
  { r with
    status := status
    failureCode := failureCode
    version := r.version + 1 }

def stopped (now : Int) (r : CognitiveRun) : CognitiveRun :=
  { r with
    status := .cancelled
    cancelledAt := some now
    version := r.version + 1 }

def authorized (i : CognitiveToolInvocation) : CognitiveToolInvocation :=
  { i with status := .authorized }

def answered (output : List (String × Value)) (outputHash : String) (i : CognitiveToolInvocation) :
    CognitiveToolInvocation :=
  { i with
    status := .completed
    output := some output
    outputHash := some outputHash }

def broken (safeErrorCode : String) (i : CognitiveToolInvocation) : CognitiveToolInvocation :=
  { i with
    status := .failed
    safeErrorCode := some safeErrorCode }

/-- The invocation that a request creates -/
def newInvocation (organizationId runId : String) (call : ProposedToolCall) (risk : ToolRisk)
    (given : Given) (argumentsHash : String) : CognitiveToolInvocation where
  id := "ctool_" ++ given.uuid "ctool"
  organizationId := organizationId
  runId := runId
  callId := call.callId
  toolName := call.toolName
  contractVersion := call.contractVersion
  risk := risk
  arguments := call.arguments
  argumentsHash := argumentsHash
  status := .requested
  output := none
  outputHash := none
  safeErrorCode := none

theorem invocation?_eq_some {callId : String} {i : CognitiveToolInvocation}
    (h : j.invocation? organizationId runId callId = some i) :
    i ∈ j.invocations ∧ i.organizationId = organizationId ∧ i.runId = runId ∧ i.callId = callId := by
  unfold invocation? at h
  have hmatch := List.find?_some h
  exact ⟨List.mem_of_find?_eq_some h, of_decide_eq_true hmatch⟩

theorem snapshotTool_eq_ok {invocationId : String} {i : CognitiveToolInvocation}
    (h : j.snapshotTool organizationId run invocationId = .ok i) :
    i ∈ j.invocations ∧ i.organizationId = organizationId ∧ i.runId = run.id ∧
      i.id = invocationId := by
  unfold snapshotTool at h
  split at h
  · next found hfound =>
    cases h
    have hmatch := List.find?_some hfound
    exact ⟨List.mem_of_find?_eq_some hfound, of_decide_eq_true hmatch⟩
  · cases h

/-! ## What each operation keeps -/

theorem Keyed.updateRun (hkeyed : j.Keyed) {f : CognitiveRun → CognitiveRun}
    (hf : ∀ r, (f r).id = r.id) (id : String) : (j.updateRun id f).Keyed :=
  ⟨hkeyed.runs.update hf, hkeyed.invocations⟩

end Journal

end Persistence

namespace SiraApi

namespace CognitiveEngine

open Domain Persistence SiraAgents

section Transactions

variable {rt : Runtime} {organizationId runId : String} {j j' : Journal}

/-! ## Transactions on a run -/

variable {given : Given} {invocationId : String}

theorem captureTurn_eq_ok {command : TurnCommand} {run : CognitiveRun} {duplicate : Bool}
    (h : captureTurn rt command given j = .ok ((run, duplicate), j')) :
    j.Capturable rt command.organizationId command.input ∧
      (duplicate = true ∧ j' = j ∧ run ∈ j.runs ∧
          run.organizationId = command.organizationId ∧ run.actorId = command.actorId ∨
        duplicate = false ∧ (∃ hash, run = Journal.newRun command.organizationId command.input given hash) ∧
          (∀ r ∈ j.runs, r.id ≠ run.id) ∧ j'.runs = j.runs ++ [run] ∧
            j'.invocations = j.invocations) := by
  unfold captureTurn at h
  obtain ⟨⟨captured, after⟩, hcapture, h⟩ := Raising.bind_eq_ok.mp h
  cases h
  obtain ⟨hcapturable, hresult⟩ := Journal.capture_eq_ok hcapture
  refine ⟨hcapturable, ?_⟩
  rcases hresult with ⟨hknown, rfl⟩ | ⟨hnone, hnew⟩
  · obtain ⟨hmem, horg, hactor⟩ := Journal.keyedRun_eq_some hknown
    exact .inl ⟨congrArg Option.isSome hknown, rfl, hmem, horg, hactor⟩
  · exact .inr ⟨congrArg Option.isSome hnone, hnew⟩

theorem exists_captureTurn {command : TurnCommand}
    (h : j.Capturable rt command.organizationId command.input)
    (hfresh : ∀ r ∈ j.runs, r.id ≠ "crun_" ++ given.uuid "crun") :
    ∃ result, captureTurn rt command given j = .ok result := by
  obtain ⟨⟨run, after⟩, hcapture⟩ := Journal.exists_capture h hfresh
  unfold captureTurn
  rw [hcapture]
  exact ⟨_, rfl⟩

/-- A run takes a manifest: it has none yet and belongs to the principal of the manifest, or it has
    this one. -/
def Bindable (run : CognitiveRun) (manifest : ContextManifest) : Prop :=
  match run.manifestHash with
  | none => manifest.principal.value = run.principal ∧ manifest.actorId = run.actorId
  | some hash => manifest.manifestHash = some hash

theorem bindTurn_eq_ok {manifest : ContextManifest}
    (h : bindTurn rt organizationId runId manifest j = .ok ((), j')) :
    ∃ run, j.get organizationId runId = .ok run ∧ Bindable run manifest ∧
      (run.manifestHash = none ∧ j' = j.updateRun run.id (Journal.bound manifest) ∨
        run.manifestHash ≠ none ∧ j' = j) := by
  unfold bindTurn at h
  obtain ⟨run, hrun, h⟩ := Raising.bind_eq_ok.mp h
  refine ⟨run, hrun, ?_⟩
  unfold Bindable
  split at h
  · next hnone =>
    obtain ⟨after, hbound, h⟩ := Raising.bind_eq_ok.mp h
    cases h
    unfold Journal.bindManifest at hbound
    obtain ⟨hash, -, hbound⟩ := Raising.bind_eq_ok.mp hbound
    simp only [Raising.unless_throw_eq_ok, not_or, not_not, Raising.pure_eq_ok] at hbound
    obtain ⟨-, howner, rfl⟩ := hbound
    rw [hnone]
    exact ⟨howner, .inl ⟨rfl, rfl⟩⟩
  · next hash hsome =>
    simp only [Raising.unless_throw_eq_ok, not_not, Raising.pure_eq_ok] at h
    obtain ⟨hsame, hresult⟩ := h
    cases hresult
    rw [hsome]
    exact ⟨hsame.symm, .inr ⟨Option.some_ne_none hash, rfl⟩⟩

theorem exists_bindTurn {manifest : ContextManifest} {run : CognitiveRun}
    (hrun : j.get organizationId runId = .ok run) (hbindable : Bindable run manifest)
    (hsealed : ∃ hash, manifest.calculateHash rt = .ok hash ∧ manifest.manifestHash = some hash) :
    ∃ j', bindTurn rt organizationId runId manifest j = .ok ((), j') := by
  obtain ⟨hash, hhash, hmanifest⟩ := hsealed
  unfold bindTurn
  unfold Bindable at hbindable
  rw [hrun, Raising.ok_bind]
  cases hbound : run.manifestHash with
  | none =>
    rw [hbound] at hbindable
    have hdone : j.bindManifest rt run manifest =
        .ok (j.updateRun run.id (Journal.bound manifest)) := by
      unfold Journal.bindManifest
      rw [hhash]
      refine Raising.bind_eq_ok.mpr ⟨hash, rfl, ?_⟩
      simp only [Raising.unless_throw_eq_ok, not_or, not_not]
      exact ⟨hmanifest, hbindable, rfl⟩
    exact ⟨_, Raising.bind_eq_ok.mpr ⟨_, hdone, rfl⟩⟩
  | some other =>
    rw [hbound] at hbindable
    refine ⟨j, ?_⟩
    simp only [Raising.unless_throw_eq_ok, not_not]
    exact ⟨hbindable.symm, rfl⟩

theorem recordTurn_eq_ok {decision : TurnDecision}
    (h : recordTurn rt organizationId runId decision j = .ok ((), j')) :
    (∃ run, j.get organizationId runId = .ok run) ∧ (Value.obj decision.payload).Canonical ∧
      j'.runs = Table.update (·.id) runId Journal.revised j.runs ∧
        j'.invocations = j.invocations := by
  unfold recordTurn at h
  obtain ⟨run, hrun, h⟩ := Raising.bind_eq_ok.mp h
  obtain ⟨after, hafter, h⟩ := Raising.bind_eq_ok.mp h
  cases h
  unfold Journal.recordDecision at hafter
  obtain ⟨stepped, hstep, hafter⟩ := Raising.bind_eq_ok.mp hafter
  cases hafter
  obtain ⟨hcanonical, hruns, hinvocations⟩ := Journal.appendStep_eq_ok hstep
  obtain ⟨-, -, rfl⟩ := Journal.get_eq_ok hrun
  refine ⟨⟨run, hrun⟩, hcanonical, ?_, hinvocations⟩
  rw [← hruns]
  rfl

theorem exists_recordTurn {decision : TurnDecision} {run : CognitiveRun}
    (hrun : j.get organizationId runId = .ok run)
    (hcanonical : (Value.obj decision.payload).Canonical) :
    ∃ j', recordTurn rt organizationId runId decision j = .ok ((), j') := by
  obtain ⟨stepped, hstep⟩ :=
    j.exists_appendStep organizationId rt run.id "DECISION" "RECORDED" hcanonical
  unfold recordTurn Journal.recordDecision
  rw [hrun, Raising.ok_bind, hstep]
  exact ⟨_, rfl⟩

theorem finishTurn_eq_ok {ending : Ending}
    (h : finishTurn rt organizationId ending j = .ok ((), j')) :
    ∃ run, j.get organizationId ending.runId = .ok run ∧ j'.invocations = j.invocations ∧
      (run.status.Final ∧ j'.runs = j.runs ∨ ¬ run.status.Final ∧
        j'.runs = Table.update (·.id) run.id (Journal.ended ending.status ending.failureCode)
          j.runs) := by
  unfold finishTurn at h
  obtain ⟨run, hrun, h⟩ := Raising.bind_eq_ok.mp h
  obtain ⟨after, hafter, h⟩ := Raising.bind_eq_ok.mp h
  cases h
  refine ⟨run, hrun, ?_⟩
  unfold Journal.finish at hafter
  split at hafter
  · next hfinal =>
    cases hafter
    exact ⟨rfl, .inl ⟨hfinal, rfl⟩⟩
  · next hopen =>
    obtain ⟨stepped, hstep, hafter⟩ := Raising.bind_eq_ok.mp hafter
    cases hafter
    obtain ⟨-, hruns, hinvocations⟩ := Journal.appendStep_eq_ok hstep
    refine ⟨hinvocations, .inr ⟨hopen, ?_⟩⟩
    rw [← hruns]
    rfl

theorem existingResult_eq_ok {result : TurnResult}
    (h : existingResult organizationId runId j = .ok (result, j')) :
    ∃ run, j.get organizationId runId = .ok run ∧ result.runId = runId ∧
      result.status = run.status ∧ j' = j := by
  unfold existingResult at h
  obtain ⟨run, hrun, h⟩ := Raising.bind_eq_ok.mp h
  cases h
  exact ⟨run, hrun, rfl, rfl, rfl⟩

theorem cancelRun_eq_ok (h : cancelRun organizationId runId given j = .ok ((), j')) :
    ∃ run, j.get organizationId runId = .ok run ∧
      (run.status.Final ∧ j' = j ∨ ¬ run.status.Final ∧
        j' = j.updateRun run.id (Journal.stopped given.now)) := by
  unfold cancelRun at h
  obtain ⟨run, hrun, h⟩ := Raising.bind_eq_ok.mp h
  cases h
  refine ⟨run, hrun, ?_⟩
  unfold Journal.cancel
  split
  · next hfinal => exact .inl ⟨hfinal, rfl⟩
  · next hopen => exact .inr ⟨hopen, rfl⟩

/-! ## Transactions on a tool invocation -/

/-- A proposed call has no invocation yet, or one with the same arguments. -/
def Requestable (rt : Runtime) (organizationId runId : String) (call : ProposedToolCall)
    (j : Journal) : Prop :=
  ∀ existing, j.invocation? organizationId runId call.callId = some existing →
    contentDigest rt (.obj call.arguments) = .ok existing.argumentsHash

/-- Authorizing a call leaves the invocation under its id as it is, if there is one that was
    authorized before, and otherwise makes it an authorized one. -/
theorem authorizeCall_eq_ok {call : ProposedToolCall} {tool : ToolManifest}
    (h : authorizeCall rt organizationId runId call tool given j = .ok (invocationId, j')) :
    (∃ run, j.get organizationId runId = .ok run) ∧ (Value.obj call.arguments).Canonical ∧
      Requestable rt organizationId runId call j ∧ j'.runs = j.runs ∧
        ((∃ existing, j.invocation? organizationId runId call.callId = some existing ∧
            existing.id = invocationId ∧
              j'.invocations = (j.authorizeTool existing).invocations) ∨
          j.invocation? organizationId runId call.callId = none ∧
            ∃ hash, (∀ i ∈ j.invocations, i.id ≠ invocationId) ∧
              invocationId = "ctool_" ++ given.uuid "ctool" ∧
                j'.invocations = j.invocations ++ [Journal.authorized
                  (Journal.newInvocation organizationId runId call tool.risk given hash)]) := by
  unfold authorizeCall at h
  obtain ⟨run, hrun, h⟩ := Raising.bind_eq_ok.mp h
  obtain ⟨⟨invocation, requested⟩, hrequest, h⟩ := Raising.bind_eq_ok.mp h
  cases h
  obtain ⟨-, -, hid⟩ := Journal.get_eq_ok hrun
  unfold Journal.requestTool at hrequest
  rw [hid] at hrequest
  obtain ⟨hash, hhash, hrequest⟩ := Raising.bind_eq_ok.mp hrequest
  refine ⟨⟨run, hrun⟩, (contentDigest_eq_ok.mp hhash).1, ?_⟩
  split at hrequest
  · next existing hexisting =>
    simp only [Raising.unless_throw_eq_ok, not_not, Raising.pure_eq_ok] at hrequest
    obtain ⟨hsame, hresult⟩ := hrequest
    cases hresult
    refine ⟨?_, ?_, .inl ⟨invocation, hexisting, rfl, rfl⟩⟩
    · intro other hother
      obtain rfl : invocation = other := Option.some.inj (hexisting.symm.trans hother)
      rw [hhash, hsame]
    · unfold Journal.authorizeTool
      split <;> rfl
  · next hnone =>
    simp only [Raising.check_bind_eq_ok, constrain_eq_ok, Raising.pure_eq_ok] at hrequest
    obtain ⟨hfree, hresult⟩ := hrequest
    cases hresult
    have hfree : ∀ i ∈ j.invocations, i.id ≠ "ctool_" ++ given.uuid "ctool" :=
      fun i hi hsame => List.any_eq_false.mp hfree i hi (decide_eq_true hsame)
    refine ⟨fun other hother => ?_, rfl, .inr ⟨hnone, hash, hfree, rfl, ?_⟩⟩
    · rw [hnone] at hother
      cases hother
    · show Table.update _ _ _ (j.invocations ++ [_]) = _
      rw [Table.update_append, Table.update_of_forall_ne hfree, Table.update_cons_self]
      rfl

theorem exists_authorizeCall {call : ProposedToolCall} (tool : ToolManifest) (given : Given)
    {run : CognitiveRun} (hrun : j.get organizationId runId = .ok run)
    (hcanonical : (Value.obj call.arguments).Canonical)
    (hrequestable : Requestable rt organizationId runId call j)
    (hfresh : ∀ i ∈ j.invocations, i.id ≠ "ctool_" ++ given.uuid "ctool") :
    ∃ result, authorizeCall rt organizationId runId call tool given j = .ok result := by
  obtain ⟨hash, hhash⟩ := (exists_contentDigest_eq_ok rt).mpr hcanonical
  obtain ⟨-, -, hid⟩ := Journal.get_eq_ok hrun
  have hrequest : ∃ result,
      j.requestTool organizationId rt run call tool.risk given = .ok result := by
    unfold Journal.requestTool
    rw [hid, hhash, Raising.ok_bind]
    cases hexisting : j.invocation? organizationId runId call.callId with
    | some existing =>
      have hsame := hrequestable existing hexisting
      rw [hhash] at hsame
      refine ⟨(existing, j), ?_⟩
      simp only [Raising.unless_throw_eq_ok, not_not, Raising.pure_eq_ok, and_true]
      exact (Except.ok.inj hsame).symm
    | none =>
      have hfree : (j.invocations.any (fun i => i.id = "ctool_" ++ given.uuid "ctool")) = false :=
        List.any_eq_false.mpr (fun i hi hsame => hfresh i hi (of_decide_eq_true hsame))
      simp only [hfree]
      exact ⟨_, rfl⟩
  obtain ⟨⟨invocation, requested⟩, hrequest⟩ := hrequest
  unfold authorizeCall
  rw [hrun, Raising.ok_bind, hrequest]
  exact ⟨_, rfl⟩

/-- The invocation of a run under an id -/
def HasInvocation (organizationId runId invocationId : String) (j : Journal)
    (i : CognitiveToolInvocation) : Prop :=
  i ∈ j.invocations ∧ i.organizationId = organizationId ∧ i.runId = runId ∧ i.id = invocationId

theorem completeCall_eq_ok {tool : ToolManifest} {output : List (String × Value)}
    (h : completeCall rt organizationId runId invocationId tool output j = .ok ((), j')) :
    ∃ i, HasInvocation organizationId runId invocationId j i ∧ (Value.obj output).Canonical ∧
      j'.runs = j.runs ∧
        (i.status = .completed ∧ j'.invocations = j.invocations ∨
          (i.status = .authorized ∨ i.status = .running) ∧ ∃ hash, j'.invocations =
            Table.update (·.id) invocationId (Journal.answered output hash) j.invocations) := by
  unfold completeCall at h
  obtain ⟨run, hrun, h⟩ := Raising.bind_eq_ok.mp h
  obtain ⟨i, hi, h⟩ := Raising.bind_eq_ok.mp h
  obtain ⟨⟨outputHash, completed⟩, hcomplete, h⟩ := Raising.bind_eq_ok.mp h
  obtain ⟨stepped, hstep, h⟩ := Raising.bind_eq_ok.mp h
  cases h
  obtain ⟨-, hruns, hinvocations⟩ := Journal.appendStep_eq_ok hstep
  obtain ⟨-, -, hid⟩ := Journal.get_eq_ok hrun
  have hhas := Journal.snapshotTool_eq_ok hi
  rw [hid] at hhas
  refine ⟨i, hhas, ?_⟩
  unfold Journal.completeTool at hcomplete
  obtain ⟨hash, hhash, hcomplete⟩ := Raising.bind_eq_ok.mp hcomplete
  refine ⟨(contentDigest_eq_ok.mp hhash).1, ?_⟩
  split at hcomplete
  · next hdone =>
    simp only [Raising.unless_throw_eq_ok, Raising.pure_eq_ok] at hcomplete
    cases hcomplete.2
    exact ⟨hruns, .inl ⟨hdone, hinvocations⟩⟩
  · split at hcomplete
    · cases hcomplete
    · next hstatus =>
      cases hcomplete
      refine ⟨hruns, .inr ⟨?_, outputHash, ?_⟩⟩
      · by_contra hneither
        exact hstatus ⟨fun ha => hneither (.inl ha), fun hr => hneither (.inr hr)⟩
      · rw [hinvocations, ← hhas.2.2.2]
        rfl

theorem failCall_eq_ok {safeErrorCode : String}
    (h : failCall organizationId runId invocationId safeErrorCode j = .ok ((), j')) :
    ∃ i, HasInvocation organizationId runId invocationId j i ∧ i.status ≠ .completed ∧
      j'.runs = j.runs ∧ j'.invocations =
        Table.update (·.id) invocationId (Journal.broken safeErrorCode) j.invocations := by
  unfold failCall at h
  obtain ⟨run, hrun, h⟩ := Raising.bind_eq_ok.mp h
  obtain ⟨i, hi, h⟩ := Raising.bind_eq_ok.mp h
  obtain ⟨failed, hfail, h⟩ := Raising.bind_eq_ok.mp h
  cases h
  obtain ⟨-, -, hid⟩ := Journal.get_eq_ok hrun
  have hhas := Journal.snapshotTool_eq_ok hi
  rw [hid] at hhas
  unfold Journal.failTool at hfail
  split at hfail
  · cases hfail
  · next hopen =>
    cases hfail
    refine ⟨i, hhas, hopen, rfl, ?_⟩
    rw [← hhas.2.2.2]
    rfl

end Transactions

/-! ## A turn up to its first decision -/

section FirstDecision

variable {engine : RunEngine} {command : TurnCommand} {manifest : ContextManifest}

/-- What an answering database gives to a step -/
def quiet : TurnGiven where
  now := 0
  uuid := fun _ => ""

/-- The journal in which a turn is captured first -/
def capturedJournal (engine : RunEngine) (command : TurnCommand) (given : TurnGiven) : Journal :=
  ((captureTurn engine.rt command given.toGiven {}).toOption.map Prod.snd).getD {}

/-- The store in which a turn is bound to its manifest -/
def boundStore (engine : RunEngine) (command : TurnCommand) (given : TurnGiven)
    (manifest : ContextManifest) : EngineStore :=
  { journal := (capturedJournal engine command given).updateRun ("crun_" ++ given.uuid "crun")
      (Journal.bound manifest) }

/-- The turn in which the first decision is made -/
def boundTurn (given : TurnGiven) (manifest : ContextManifest) : Turn where
  runId := "crun_" ++ given.uuid "crun"
  duplicate := false
  manifest := manifest

theorem captured_journal (engine : RunEngine) (command : TurnCommand) (given : TurnGiven) :
    ∃ run, captureTurn engine.rt command given.toGiven {} =
        .ok ((run, false), capturedJournal engine command given) ∧
      (∃ hash, run = Journal.newRun command.organizationId command.input given.toGiven hash) ∧
        (capturedJournal engine command given).runs = [run] ∧
          (capturedJournal engine command given).invocations = [] := by
  obtain ⟨⟨⟨run, duplicate⟩, j⟩, hcapture⟩ :
      ∃ result, captureTurn engine.rt command given.toGiven {} = .ok result :=
    exists_captureTurn (fun _ hr => absurd hr List.not_mem_nil)
      (fun _ hr => absurd hr List.not_mem_nil)
  have hj : capturedJournal engine command given = j := by
    unfold capturedJournal
    rw [hcapture]
    rfl
  obtain ⟨-, ⟨-, -, hmem, -⟩ | ⟨rfl, hnew, -, hruns, hinvocations⟩⟩ := captureTurn_eq_ok hcapture
  · cases hmem
  · rw [hj]
    exact ⟨run, hcapture, hnew, hruns, hinvocations⟩

theorem get_captured (engine : RunEngine) (command : TurnCommand) (given : TurnGiven) :
    ∃ run hash, run = Journal.newRun command.organizationId command.input given.toGiven hash ∧
      (capturedJournal engine command given).get command.organizationId
        ("crun_" ++ given.uuid "crun") = .ok run := by
  obtain ⟨run, -, ⟨hash, hnew⟩, hruns, -⟩ := captured_journal engine command given
  refine ⟨run, hash, hnew, ?_⟩
  unfold Journal.get
  rw [hruns, hnew]
  simp [Journal.newRun]

theorem processes_bound (hprepared : engine.prepare command = .ok manifest)
    (first second : TurnGiven) (hfirst : first.unavailable = false)
    (hsecond : second.unavailable = false) :
    processes engine { command := command } {} [first, second] =
      ({ command := command, phase := .decide (boundTurn first manifest) },
        boundStore engine command first manifest) := by
  obtain ⟨run, hcapture, ⟨hash, hnew⟩, hruns, -⟩ := captured_journal engine command first
  obtain ⟨found, _, hfound, hget⟩ := get_captured engine command first
  have hid : run.id = "crun_" ++ first.uuid "crun" := by rw [hnew]; rfl
  have hcaptured : captured engine command run false = .bind (boundTurn first manifest) := by
    unfold captured boundTurn
    rw [if_neg (fun h => nomatch h.1), hprepared, hid]
  have hprepares := prepare_eq_ok hprepared
  have hbindable : Bindable found manifest := by
    rw [hfound]
    exact ⟨congrArg Principal.value hprepares.principal, hprepares.actorId⟩
  obtain ⟨bound, hbind⟩ := exists_bindTurn hget hbindable hprepares.hashed
  have hbound : bound = (boundStore engine command first manifest).journal := by
    obtain ⟨row, hrow, -, ⟨-, hbound⟩ | ⟨hsome, -⟩⟩ := bindTurn_eq_ok hbind
    · obtain ⟨-, -, hrowId⟩ := Journal.get_eq_ok hrow
      rw [hbound, hrowId]
      rfl
    · obtain rfl : row = found := Except.ok.inj (hrow.symm.trans hget)
      rw [hfound] at hsome
      exact absurd rfl hsome
  rw [hbound] at hbind
  have hcaptures : advance engine { command := command } first {} =
      ({ command := command, phase := .bind (boundTurn first manifest) },
        { journal := capturedJournal engine command first }) := by
    simp only [advance]
    rw [commits_ok {} (captureTurn engine.rt command first.toGiven) hfirst hcapture, hcaptured]
  rw [processes_cons, hcaptures, processes_cons, processes_nil]
  simp only [advance]
  rw [commits_ok { journal := capturedJournal engine command first }
    (bindTurn engine.rt command.organizationId (boundTurn first manifest).runId
      (boundTurn first manifest).manifest) hsecond hbind]
  rfl

theorem bound_journal (engine : RunEngine) (command : TurnCommand) (given : TurnGiven)
    (manifest : ContextManifest) :
    (∃ run, (boundStore engine command given manifest).journal.get command.organizationId
        (boundTurn given manifest).runId = .ok run) ∧
      (boundStore engine command given manifest).journal.invocations = [] := by
  obtain ⟨run, hash, hnew, hget⟩ := get_captured engine command given
  obtain ⟨_, -, -, -, hinvocations⟩ := captured_journal engine command given
  refine ⟨⟨_, Journal.get_update (f := Journal.bound manifest) rfl (fun _ => ⟨rfl, rfl⟩) hget⟩, ?_⟩
  exact hinvocations

end FirstDecision

end CognitiveEngine

end SiraApi
