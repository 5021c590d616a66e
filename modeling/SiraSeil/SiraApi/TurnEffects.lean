-- SUMMARY: What one step of a process call can change: the run that it is at work on, the invocations of that run, and the handlers invoked for it.
import SiraSeil.SiraApi.TurnJournal

/-!
# The effects of a step

A process call is at work on one run from its capture to its end. Every step of it changes rows of
that run only.
-/

namespace SiraApi

namespace CognitiveEngine

open Domain Persistence SiraAgents

/-! ## The run at work -/

/-- The run that a process call is at work on -/
def Phase.runId? : Phase → Option String
  | .capture | .existing _ | .returned _ | .raised _ => none
  | .bind turn | .decide turn | .record turn _ _ | .failTool turn _ _ => some turn.runId
  | .authorize p => some p.turn.runId
  | .execute a | .handle a | .complete a _ => some a.turn.runId
  | .finish ending => some ending.runId

/-- A phase is at work on a run only if that is the given one. -/
def Phase.StaysOn (phase : Phase) (runId : Option String) : Prop :=
  ∀ other, phase.runId? = some other → runId = some other

theorem Phase.staysOn_of_eq {phase : Phase} {runId : String} (h : phase.runId? = some runId) :
    phase.StaysOn (some runId) :=
  fun _ hother => h.symm.trans hother

theorem Phase.staysOn_of_none {phase : Phase} {runId : Option String} (h : phase.runId? = none) :
    phase.StaysOn runId := by
  intro other hother
  rw [h] at hother
  cases hother

variable {engine : RunEngine} {command : TurnCommand} {turn : Turn} {manifest : ContextManifest}

theorem staysOn_ends {failure : ToolFailure} : (failure.ends turn).StaysOn (some turn.runId) := by
  cases failure <;> exact Phase.staysOn_of_eq rfl

theorem staysOn_decided {outcome : ModelOutcome} :
    (decided command turn manifest outcome).StaysOn (some turn.runId) := by
  unfold decided
  split
  · exact Phase.staysOn_of_eq rfl
  · exact Phase.staysOn_of_eq rfl
  · split <;> exact Phase.staysOn_of_eq rfl
  · exact Phase.staysOn_of_eq rfl

theorem staysOn_proceed {calls : List ProposedToolCall} :
    (proceed command turn manifest calls).StaysOn (some turn.runId) := by
  cases calls with
  | nil =>
    simp only [proceed, iterate]
    split <;> exact Phase.staysOn_of_eq rfl
  | cons next rest => exact Phase.staysOn_of_eq rfl

theorem staysOn_recorded {decision : TurnDecision} :
    (recorded command turn manifest decision).StaysOn (some turn.runId) := by
  cases decision with
  | proposeTools batch => exact staysOn_proceed
  | _ => exact Phase.staysOn_of_eq rfl

theorem staysOn_handled {a : Authorized} {outcome : HandlerOutcome} :
    (handled engine.validator a outcome).StaysOn (some a.turn.runId) := by
  unfold handled
  split
  · split <;> exact Phase.staysOn_of_eq rfl
  · exact Phase.staysOn_of_eq rfl
  · exact Phase.staysOn_of_eq rfl
  · exact Phase.staysOn_of_eq rfl

theorem staysOn_advance {call : ProcessCall} (given : TurnGiven) (s : EngineStore)
    (hcapture : call.phase ≠ .capture) :
    (advance engine call given s).1.phase.StaysOn call.phase.runId? := by
  obtain ⟨trace, phase⟩ := call
  have hcommits : ∀ {α : Type} (work : Journal → Qualified (α × Journal)) (returns : α → Phase)
      (raises : QualificationError → Phase), (∀ a, (returns a).StaysOn phase.runId?) →
      (∀ e, (raises e).StaysOn phase.runId?) →
      (commits ⟨trace, phase⟩ s given work returns raises).1.phase.StaysOn phase.runId? := by
    intro α work returns raises hreturns hraises
    exact commits_induction (P := fun r => r.1.phase.StaysOn phase.runId?)
      (fun e _ => hraises e) (fun a _ _ => hreturns a)
  have hraised : ∀ e : QualificationError, (Phase.raised (.stored e)).StaysOn phase.runId? :=
    fun _ => Phase.staysOn_of_none rfl
  cases phase with
  | capture => exact absurd rfl hcapture
  | existing id => exact hcommits _ _ _ (fun _ => Phase.staysOn_of_none rfl) hraised
  | bind turn => exact hcommits _ _ _ (fun _ => Phase.staysOn_of_eq rfl) hraised
  | decide turn =>
    simp only [advance]
    split
    · exact Phase.staysOn_of_none rfl
    · exact staysOn_decided
  | record turn manifest decision => exact hcommits _ _ _ (fun _ => staysOn_recorded) hraised
  | authorize p =>
    simp only [advance]
    split
    · exact staysOn_ends
    · exact hcommits _ _ _ (fun _ => Phase.staysOn_of_eq rfl) (fun _ => staysOn_ends)
  | execute a =>
    simp only [advance]
    split <;> exact Phase.staysOn_of_eq rfl
  | handle a => exact staysOn_handled
  | complete a output =>
    refine hcommits _ _ _ (fun _ => ?_) (fun _ => Phase.staysOn_of_eq rfl)
    show (proceed trace.command (observed a output) a.manifest a.rest).StaysOn
      (some (observed a output).runId)
    exact staysOn_proceed
  | failTool turn invocationId failure => exact hcommits _ _ _ (fun _ => staysOn_ends) hraised
  | finish ending => exact hcommits _ _ _ (fun _ => Phase.staysOn_of_none rfl) hraised
  | returned result => exact Phase.staysOn_of_none rfl
  | raised error => exact Phase.staysOn_of_none rfl

theorem advance_command (call : ProcessCall) (given : TurnGiven) (s : EngineStore) :
    (advance engine call given s).1.command = call.command := by
  obtain ⟨trace, phase⟩ := call
  have hcommits : ∀ {α : Type} (work : Journal → Qualified (α × Journal)) (returns : α → Phase)
      (raises : QualificationError → Phase),
      (commits ⟨trace, phase⟩ s given work returns raises).1.command = trace.command := by
    intro α work returns raises
    exact commits_induction (P := fun r => r.1.command = trace.command) (fun _ _ => rfl)
      (fun _ _ _ => rfl)
  cases phase with
  | decide turn =>
    simp only [advance]
    split <;> rfl
  | authorize p =>
    simp only [advance]
    split
    · rfl
    · exact hcommits _ _ _
  | execute a =>
    simp only [advance]
    split <;> rfl
  | handle a => rfl
  | returned result => rfl
  | raised error => rfl
  | _ => exact hcommits _ _ _

/-! ## Rows that a step changes -/

/-- What a step does to the runs. No step of a process call cancels one. -/
inductive RunsChange (call : ProcessCall) (s s' : EngineStore) : Prop
  | same (h : s'.journal.runs = s.journal.runs)
  | captured (run : CognitiveRun) (hphase : call.phase = .capture)
      (horganization : run.organizationId = call.command.organizationId)
      (hstatus : run.status = .captured) (hfresh : ∀ r ∈ s.journal.runs, r.id ≠ run.id)
      (h : s'.journal.runs = s.journal.runs ++ [run])
  | changed (runId : String) (f : CognitiveRun → CognitiveRun)
      (hphase : call.phase.runId? = some runId)
      (hrun : ∃ row, s.journal.get call.command.organizationId runId = .ok row)
      (hkeeps : ∀ r, (f r).organizationId = r.organizationId ∧ (f r).id = r.id)
      (hstatus : ∀ r, (f r).status = .cancelled → r.status = .cancelled)
      (h : s'.journal.runs = Table.update (·.id) runId f s.journal.runs)

/-- What a step does to the invocations -/
inductive InvocationsChange (call : ProcessCall) (s s' : EngineStore) : Prop
  | same (h : s'.journal.invocations = s.journal.invocations)
  | changed (runId invocationId : String)
      (f : CognitiveToolInvocation → CognitiveToolInvocation)
      (hphase : call.phase.runId? = some runId)
      (hrow : ∃ i, HasInvocation call.command.organizationId runId invocationId s.journal i)
      (hkeeps : ∀ i, (f i).organizationId = i.organizationId ∧ (f i).runId = i.runId ∧
        (f i).id = i.id)
      (h : s'.journal.invocations =
        Table.update (·.id) invocationId f s.journal.invocations)
  | added (runId : String) (i : CognitiveToolInvocation) (hphase : call.phase.runId? = some runId)
      (hof : i.organizationId = call.command.organizationId ∧ i.runId = runId)
      (hfresh : ∀ other ∈ s.journal.invocations, other.id ≠ i.id)
      (h : s'.journal.invocations = s.journal.invocations ++ [i])

/-- What a step does to the handlers that were invoked -/
inductive ExecutionsChange (call : ProcessCall) (s s' : EngineStore) : Prop
  | same (h : s'.executions = s.executions)
  | added (runId : String) (e : ToolExecution) (hphase : call.phase.runId? = some runId)
      (hof : e.runId = runId) (h : s'.executions = s.executions ++ [e])

/-- An ending is not a cancellation, and its result is about its run. -/
def Phase.EndsOpenly : Phase → Prop
  | .finish ending => ending.status ≠ .cancelled ∧ ending.result.status = ending.status ∧
      ending.result.runId = ending.runId
  | _ => True

/-- A turn goes on: it has not returned, and it may end only openly. -/
def Phase.Continues : Phase → Prop
  | .finish ending => ending.status ≠ .cancelled ∧ ending.result.status = ending.status ∧
      ending.result.runId = ending.runId
  | .returned _ => False
  | _ => True

theorem Phase.Continues.endsOpenly {phase : Phase} (h : phase.Continues) : phase.EndsOpenly := by
  cases phase with
  | finish ending => exact h
  | _ => exact trivial

variable {call : ProcessCall} {given : TurnGiven} {s : EngineStore}

theorem continues_ends {failure : ToolFailure} : (failure.ends turn).Continues := by
  cases failure <;> exact ⟨nofun, rfl, rfl⟩

theorem continues_proceed {calls : List ProposedToolCall} :
    (proceed command turn manifest calls).Continues := by
  cases calls with
  | nil =>
    simp only [proceed, iterate]
    split
    · exact trivial
    · exact ⟨nofun, rfl, rfl⟩
  | cons next rest => exact trivial

theorem continues_recorded {decision : TurnDecision} :
    (recorded command turn manifest decision).Continues := by
  cases decision with
  | proposeTools batch => exact continues_proceed
  | _ => exact ⟨nofun, rfl, rfl⟩

theorem continues_decided {outcome : ModelOutcome} :
    (decided command turn manifest outcome).Continues := by
  unfold decided
  split
  · exact trivial
  · exact ⟨nofun, rfl, rfl⟩
  · split
    · exact trivial
    · exact ⟨nofun, rfl, rfl⟩
  · exact ⟨nofun, rfl, rfl⟩

theorem continues_captured {run : CognitiveRun} {duplicate : Bool} :
    (captured engine command run duplicate).Continues := by
  unfold captured
  split
  · exact trivial
  · split <;> exact trivial

theorem continues_handled {a : Authorized} {outcome : HandlerOutcome} :
    (handled engine.validator a outcome).Continues := by
  unfold handled
  split
  · split <;> exact trivial
  · exact trivial
  · exact trivial
  · exact trivial

/-- Before its end a process call goes on, raises, or returns what it read or was to end with. -/
theorem continues_advance (hexisting : ∀ runId, call.phase ≠ .existing runId)
    (hfinish : ∀ ending, call.phase ≠ .finish ending)
    (hreturned : ∀ result, call.phase ≠ .returned result) :
    (advance engine call given s).1.phase.Continues := by
  obtain ⟨trace, phase⟩ := call
  have hcommits : ∀ {α : Type} (work : Journal → Qualified (α × Journal)) (returns : α → Phase)
      (raises : QualificationError → Phase), (∀ a, (returns a).Continues) →
      (∀ e, (raises e).Continues) →
      (commits ⟨trace, phase⟩ s given work returns raises).1.phase.Continues := by
    intro α work returns raises hreturns hraises
    exact commits_induction (P := fun r => r.1.phase.Continues) (fun e _ => hraises e)
      (fun a _ _ => hreturns a)
  cases phase with
  | capture => exact hcommits _ _ _ (fun _ => continues_captured) (fun _ => trivial)
  | existing runId => exact absurd rfl (hexisting runId)
  | bind turn => exact hcommits _ _ _ (fun _ => trivial) (fun _ => trivial)
  | decide turn =>
    simp only [advance]
    split
    · exact trivial
    · exact continues_decided
  | record turn manifest decision =>
    exact hcommits _ _ _ (fun _ => continues_recorded) (fun _ => trivial)
  | authorize p =>
    simp only [advance]
    split
    · exact continues_ends
    · exact hcommits _ _ _ (fun _ => trivial) (fun _ => continues_ends)
  | execute a =>
    simp only [advance]
    split <;> exact trivial
  | handle a => exact continues_handled
  | complete a output => exact hcommits _ _ _ (fun _ => continues_proceed) (fun _ => trivial)
  | failTool turn invocationId failure =>
    exact hcommits _ _ _ (fun _ => continues_ends) (fun _ => trivial)
  | finish ending => exact absurd rfl (hfinish ending)
  | returned result => exact absurd rfl (hreturned result)
  | raised error => exact trivial

theorem endsOpenly_advance (given : TurnGiven) (s : EngineStore) :
    (advance engine call given s).1.phase.EndsOpenly := by
  by_cases hexisting : ∃ runId, call.phase = .existing runId
  · obtain ⟨runId, hphase⟩ := hexisting
    simp only [advance, hphase]
    exact commits_induction (P := fun r => r.1.phase.EndsOpenly) (fun _ _ => trivial)
      (fun _ _ _ => trivial)
  · by_cases hfinish : ∃ ending, call.phase = .finish ending
    · obtain ⟨ending, hphase⟩ := hfinish
      simp only [advance, hphase]
      exact commits_induction (P := fun r => r.1.phase.EndsOpenly) (fun _ _ => trivial)
        (fun _ _ _ => trivial)
    · by_cases hreturned : ∃ result, call.phase = .returned result
      · obtain ⟨result, hphase⟩ := hreturned
        simp only [advance, hphase]
        exact trivial
      · exact (continues_advance (not_exists.mp hexisting) (not_exists.mp hfinish)
          (not_exists.mp hreturned)).endsOpenly

theorem runsChange_advance (hends : call.phase.EndsOpenly) :
    RunsChange call s (advance engine call given s).2 := by
  obtain ⟨trace, phase⟩ := call
  have hcommits : ∀ {α : Type} (work : Journal → Qualified (α × Journal)) (returns : α → Phase)
      (raises : QualificationError → Phase),
      (∀ a j, work s.journal = .ok (a, j) → RunsChange ⟨trace, phase⟩ s { s with journal := j }) →
      RunsChange ⟨trace, phase⟩ s (commits ⟨trace, phase⟩ s given work returns raises).2 := by
    intro α work returns raises hwork
    exact commits_induction (P := fun r => RunsChange ⟨trace, phase⟩ s r.2) (fun _ _ => .same rfl)
      hwork
  cases phase with
  | capture =>
    refine hcommits _ _ _ (fun ⟨run, duplicate⟩ j hwork => ?_)
    obtain ⟨-, ⟨-, rfl, -⟩ | ⟨-, ⟨hash, hnew⟩, hfresh, hruns, -⟩⟩ := captureTurn_eq_ok hwork
    · exact .same rfl
    · exact .captured run rfl (by rw [hnew]; rfl) (by rw [hnew]; rfl) hfresh hruns
  | existing id =>
    refine hcommits _ _ _ (fun result j hwork => ?_)
    obtain ⟨_, -, -, -, rfl⟩ := existingResult_eq_ok hwork
    exact .same rfl
  | bind turn =>
    refine hcommits _ _ _ (fun _ j hwork => ?_)
    obtain ⟨run, hrun, -, ⟨-, rfl⟩ | ⟨-, rfl⟩⟩ := bindTurn_eq_ok hwork
    · obtain ⟨-, -, hid⟩ := Journal.get_eq_ok hrun
      exact .changed turn.runId (Journal.bound turn.manifest) rfl ⟨run, hrun⟩
        (fun _ => ⟨rfl, rfl⟩) (fun _ h => by cases h) (hid ▸ rfl)
    · exact .same rfl
  | decide turn =>
    simp only [advance]
    split <;> exact .same rfl
  | record turn manifest decision =>
    refine hcommits _ _ _ (fun _ j hwork => ?_)
    obtain ⟨hrun, -, hruns, -⟩ := recordTurn_eq_ok hwork
    exact .changed turn.runId Journal.revised rfl hrun (fun _ => ⟨rfl, rfl⟩) (fun _ h => h) hruns
  | authorize p =>
    simp only [advance]
    split
    · exact .same rfl
    · refine hcommits _ _ _ (fun _ j hwork => ?_)
      obtain ⟨-, -, -, hruns, -⟩ := authorizeCall_eq_ok hwork
      exact .same hruns
  | execute a =>
    simp only [advance]
    split <;> exact .same rfl
  | handle a => exact .same rfl
  | complete a output =>
    refine hcommits _ _ _ (fun _ j hwork => ?_)
    obtain ⟨-, -, -, hruns, -⟩ := completeCall_eq_ok hwork
    exact .same hruns
  | failTool turn invocationId failure =>
    refine hcommits _ _ _ (fun _ j hwork => ?_)
    obtain ⟨-, -, -, hruns, -⟩ := failCall_eq_ok hwork
    exact .same hruns
  | finish ending =>
    refine hcommits _ _ _ (fun _ j hwork => ?_)
    obtain ⟨run, hrun, -, ⟨-, hruns⟩ | ⟨-, hruns⟩⟩ := finishTurn_eq_ok hwork
    · exact .same hruns
    · obtain ⟨-, -, hid⟩ := Journal.get_eq_ok hrun
      rw [hid] at hruns
      exact .changed ending.runId (Journal.ended ending.status ending.failureCode) rfl ⟨run, hrun⟩
        (fun _ => ⟨rfl, rfl⟩) (fun _ h => absurd h hends.1) hruns
  | returned result => exact .same rfl
  | raised error => exact .same rfl

theorem invocationsChange_advance :
    InvocationsChange call s (advance engine call given s).2 := by
  obtain ⟨trace, phase⟩ := call
  have hcommits : ∀ {α : Type} (work : Journal → Qualified (α × Journal)) (returns : α → Phase)
      (raises : QualificationError → Phase),
      (∀ a j, work s.journal = .ok (a, j) →
        InvocationsChange ⟨trace, phase⟩ s { s with journal := j }) →
      InvocationsChange ⟨trace, phase⟩ s (commits ⟨trace, phase⟩ s given work returns raises).2 := by
    intro α work returns raises hwork
    exact commits_induction (P := fun r => InvocationsChange ⟨trace, phase⟩ s r.2)
      (fun _ _ => .same rfl) hwork
  cases phase with
  | capture =>
    refine hcommits _ _ _ (fun ⟨run, duplicate⟩ j hwork => ?_)
    obtain ⟨-, ⟨-, rfl, -⟩ | ⟨-, -, -, -, hinvocations⟩⟩ := captureTurn_eq_ok hwork
    · exact .same rfl
    · exact .same hinvocations
  | existing id =>
    refine hcommits _ _ _ (fun result j hwork => ?_)
    obtain ⟨_, -, -, -, rfl⟩ := existingResult_eq_ok hwork
    exact .same rfl
  | bind turn =>
    refine hcommits _ _ _ (fun _ j hwork => ?_)
    obtain ⟨run, -, -, ⟨-, rfl⟩ | ⟨-, rfl⟩⟩ := bindTurn_eq_ok hwork <;> exact .same rfl
  | decide turn =>
    simp only [advance]
    split <;> exact .same rfl
  | record turn manifest decision =>
    exact hcommits _ _ _ (fun _ j hwork => .same (recordTurn_eq_ok hwork).2.2.2)
  | authorize p =>
    simp only [advance]
    split
    · exact .same rfl
    · next tool htool =>
      refine hcommits _ _ _ (fun invocationId j hwork => ?_)
      obtain ⟨-, -, -, -, ⟨existing, hexisting, -, hinvocations⟩ | ⟨-, hash, hfresh, hid, hinvocations⟩⟩ :=
        authorizeCall_eq_ok hwork
      · unfold Journal.authorizeTool at hinvocations
        split at hinvocations
        · obtain ⟨hmem, horganization, hof, -⟩ := Journal.invocation?_eq_some hexisting
          exact .changed p.turn.runId existing.id Journal.authorized rfl
            ⟨existing, hmem, horganization, hof, rfl⟩ (fun _ => ⟨rfl, rfl, rfl⟩) hinvocations
        · exact .same hinvocations
      · refine .added p.turn.runId _ rfl ⟨rfl, rfl⟩ ?_ hinvocations
        rw [hid] at hfresh
        exact hfresh
  | execute a =>
    simp only [advance]
    split <;> exact .same rfl
  | handle a => exact .same rfl
  | complete a output =>
    refine hcommits _ _ _ (fun _ j hwork => ?_)
    obtain ⟨i, hi, -, -, ⟨-, hinvocations⟩ | ⟨-, hash, hinvocations⟩⟩ := completeCall_eq_ok hwork
    · exact .same hinvocations
    · exact .changed a.turn.runId a.invocationId (Journal.answered output hash) rfl ⟨i, hi⟩
        (fun _ => ⟨rfl, rfl, rfl⟩) hinvocations
  | failTool turn invocationId failure =>
    refine hcommits _ _ _ (fun _ j hwork => ?_)
    obtain ⟨i, hi, -, -, hinvocations⟩ := failCall_eq_ok hwork
    exact .changed turn.runId invocationId (Journal.broken failure.safeErrorCode) rfl ⟨i, hi⟩
      (fun _ => ⟨rfl, rfl, rfl⟩) hinvocations
  | finish ending =>
    refine hcommits _ _ _ (fun _ j hwork => ?_)
    obtain ⟨_, -, hinvocations, -⟩ := finishTurn_eq_ok hwork
    exact .same hinvocations
  | returned result => exact .same rfl
  | raised error => exact .same rfl

theorem executionsChange_advance :
    ExecutionsChange call s (advance engine call given s).2 := by
  obtain ⟨trace, phase⟩ := call
  have hcommits : ∀ {α : Type} (work : Journal → Qualified (α × Journal)) (returns : α → Phase)
      (raises : QualificationError → Phase),
      ExecutionsChange ⟨trace, phase⟩ s (commits ⟨trace, phase⟩ s given work returns raises).2 := by
    intro α work returns raises
    exact commits_induction (P := fun r => ExecutionsChange ⟨trace, phase⟩ s r.2)
      (fun _ _ => .same rfl) (fun _ _ _ => .same rfl)
  cases phase with
  | decide turn =>
    simp only [advance]
    split <;> exact .same rfl
  | authorize p =>
    simp only [advance]
    split
    · exact .same rfl
    · exact hcommits _ _ _
  | execute a =>
    simp only [advance]
    split
    · exact .added a.turn.runId _ rfl rfl rfl
    · exact .same rfl
  | handle a => exact .same rfl
  | returned result => exact .same rfl
  | raised error => exact .same rfl
  | _ => exact hcommits _ _ _

end CognitiveEngine

end SiraApi
