-- SUMMARY: Missions with an experiment budget: their events and artifacts, and how an experiment is planned, started and finished.
import SiraSeil.Library.Dict
import SiraSeil.Persistence.QualificationRepository

/-!
# The mission repository

`persistence/mission_repository.py` over the rows of `persistence/models.py` and the contracts of
`sira_agents/experiment.py`. The texts of a spec are validated before it is planned, and no
operation here reads their lengths. A binary float in a spec or a result has no content hash, so
that planning or storing it raises; values have no floats.
-/

namespace Persistence

open Domain

/-! ## Errors -/

inductive MissionError
  | persistenceConflict (message : String)
  | recordNotFound (message : String)
  | integrity (constraint : String)
  | domain (error : PyError)
  | valueError (literal : String)
  | typeError (message : String)
  deriving DecidableEq

/-- `content_hash` -/
def missionHash (rt : Runtime) (payload : Value) : Except MissionError String :=
  (contentHash rt payload).mapError .domain

/-- A declared constraint refuses what violates it. -/
def declared (violated : Bool) (constraint : String) : Except MissionError Unit :=
  if violated then .error (.integrity constraint) else .ok ()

theorem declared_eq_ok {violated : Bool} {constraint : String} {u : Unit} :
    declared violated constraint = .ok u ↔ violated = false := by
  unfold declared
  split <;> simp_all

/-! ## `int` -/

section Reading

-- The value of a decimal digit in the Unicode database
variable (decimal : Char → Option Nat)

/-- Digits, which single underscores may separate -/
def readDigits : List Char → Option (List Nat)
  | [] => none
  | [c] => (decimal c).map (fun d => [d])
  | c :: '_' :: cs => do
    let d ← decimal c
    let ds ← readDigits cs
    return d :: ds
  | c :: c' :: cs => do
    let d ← decimal c
    let ds ← readDigits (c' :: cs)
    return d :: ds

/-- `int` of digits, of which there may be 4300 -/
def natOfText (text : List Char) : Option Nat :=
  match readDigits decimal text with
  | none => none
  | some ds => if ds.length > 4300 then none else some (ds.foldl (fun n d => 10 * n + d) 0)

/-- `int` of a string -/
def intOfText (text : String) : Option Int :=
  match (strip text).toList with
  | '-' :: cs => (natOfText decimal cs).map (fun n => -(n : Int))
  | '+' :: cs => (natOfText decimal cs).map (fun n => (n : Int))
  | cs => (natOfText decimal cs).map (fun n => (n : Int))

def refusedType (name : String) : MissionError :=
  .typeError ("int() argument must be a string, a bytes-like object or a real number, not '" ++
    name ++ "'")

/-- `int` -/
def pyInt : Value → Except MissionError Int
  | .atom (.int n) => .ok n
  | .atom (.bool b) => .ok (if b then 1 else 0)
  | .atom (.str s) =>
    match intOfText decimal s with
    | some n => .ok n
    | none => .error (.valueError s)
  | .atom .null => .error (refusedType "NoneType")
  | .atom (.datetime _) => .error (refusedType "datetime.datetime")
  | .seq _ => .error (refusedType "list")
  | .obj _ => .error (refusedType "dict")

@[simp] theorem pyInt_int (n : Int) : pyInt decimal (.int n) = .ok n := rfl

end Reading

/-! ## Contracts of an experiment -/

structure ExperimentSignal where
  name : String
  measurement : String
  successThreshold : String

/-- `model_dump(mode="json")` -/
def ExperimentSignal.dump (signal : ExperimentSignal) : Value :=
  .obj [("name", .str signal.name), ("measurement", .str signal.measurement),
    ("success_threshold", .str signal.successThreshold)]

structure ExperimentSpec where
  candidateId : String
  fixtureId : String
  procedure : List String
  environment : List (String × Value)
  successSignals : List ExperimentSignal
  replayCommand : List String
  egressHosts : List String := []
  timeoutSeconds : Nat := 300
  maxOutputBytes : Nat := 2000000

/-- `model_dump(mode="json")` -/
def ExperimentSpec.dump (spec : ExperimentSpec) : Value :=
  .obj [("candidate_id", .str spec.candidateId), ("fixture_id", .str spec.fixtureId),
    ("procedure", .strs spec.procedure), ("environment", .obj spec.environment),
    ("success_signals", .seq (spec.successSignals.map (·.dump))),
    ("replay_command", .strs spec.replayCommand), ("egress_hosts", .strs spec.egressHosts),
    ("timeout_seconds", .nat spec.timeoutSeconds), ("max_output_bytes", .nat spec.maxOutputBytes)]

structure ExperimentObservation where
  signal : String
  value : Value
  source : String

/-- `model_dump(mode="json")` -/
def ExperimentObservation.dump (o : ExperimentObservation) : Value :=
  .obj [("signal", .str o.signal), ("value", o.value), ("source", .str o.source)]

inductive ExperimentStatus
  | planned | provisioning | running | completed | failed | cancelled
  deriving DecidableEq, Repr

def ExperimentStatus.value : ExperimentStatus → String
  | planned => "PLANNED"
  | provisioning => "PROVISIONING"
  | running => "RUNNING"
  | completed => "COMPLETED"
  | failed => "FAILED"
  | cancelled => "CANCELLED"

/-- The statuses that a result may have -/
def ExperimentStatus.Terminal (status : ExperimentStatus) : Prop :=
  status = .completed ∨ status = .failed ∨ status = .cancelled

instance (status : ExperimentStatus) : Decidable status.Terminal :=
  inferInstanceAs (Decidable (_ ∨ _))

structure ExperimentResult where
  status : ExperimentStatus
  terminal : status.Terminal
  observations : List ExperimentObservation := []
  limitations : List String := []
  logsReference : Option String := none
  artifactHash : String

/-! ## Rows -/

structure AgentMission where
  id : String
  organizationId : String
  state : String
  budget : Dict String Value

structure AgentMissionEvent where
  id : String
  organizationId : String
  missionId : String
  sequence : Nat
  eventType : String
  eventKey : String
  actorType : String
  actorId : String
  payload : List (String × Value)
  payloadHash : String

structure AgentMissionArtifact where
  id : String
  organizationId : String
  missionId : String
  taskId : Option String
  kind : String
  title : String
  status : String
  authority : String
  payload : List (String × Value)
  sourceRefs : List Value
  contentHash : String
  createdBy : String

structure AgentExperiment where
  id : String
  organizationId : String
  missionId : String
  taskId : Option String
  candidateId : String
  status : ExperimentStatus
  procedure : List (String × Value)
  environment : List (String × Value)
  successSignals : List Value
  observations : List Value
  limitations : List String
  replaySpec : List (String × Value)
  cost : List (String × Value)
  resultArtifactId : Option String
  contentHash : String
  startedAt : Option Int
  completedAt : Option Int

structure MissionDb where
  missions : List AgentMission := []
  /-- The ids of `agent_mission_tasks` -/
  tasks : List String := []
  experiments : List AgentExperiment := []
  artifacts : List AgentMissionArtifact := []
  events : List AgentMissionEvent := []

/-- `int(mission.budget.get("experiments_remaining", 0))` -/
def AgentMission.remaining (decimal : Char → Option Nat) (mission : AgentMission) :
    Except MissionError Int :=
  pyInt decimal ((mission.budget.get? "experiments_remaining").getD (.int 0))

namespace MissionDb

def updateMission (id : String) (f : AgentMission → AgentMission) (db : MissionDb) : MissionDb :=
  { db with missions := Table.update (·.id) id f db.missions }

def updateExperiment (id : String) (f : AgentExperiment → AgentExperiment) (db : MissionDb) :
    MissionDb :=
  { db with experiments := Table.update (·.id) id f db.experiments }

/-- The foreign key of a task, which may be missing -/
def declaredTask (taskId : Option String) (constraint : String) (db : MissionDb) :
    Except MissionError Unit :=
  declared (taskId.any (fun id => decide (id ∉ db.tasks))) constraint

section Repository

variable (rt : Runtime) (decimal : Char → Option Nat) (organizationId : String)

/-- `get` -/
def get (missionId : String) (db : MissionDb) : Except MissionError AgentMission :=
  match db.missions.find? (fun m => m.id = missionId ∧ m.organizationId = organizationId) with
  | some mission => .ok mission
  | none => .error (.recordNotFound "Agent mission was not found")

/-! ## Events and artifacts -/

/-- `append_event` -/
def appendEvent (mission : AgentMission) (eventType eventKey actorType actorId : String)
    (payload : List (String × Value)) (given : Given) (db : MissionDb) :
    Except MissionError (AgentMissionEvent × MissionDb) := do
  if mission.organizationId ≠ organizationId then
    throw (.persistenceConflict "mission event tenant does not match transaction")
  let payloadHash ← missionHash rt (.obj payload)
  match db.events.find? (fun e => e.organizationId = organizationId ∧ e.eventKey = eventKey) with
  | some existing =>
    if existing.payloadHash ≠ payloadHash then
      throw (.persistenceConflict "mission event key was reused with another payload")
    return (existing, db)
  | none =>
    let sequences := (db.events.filter (fun e =>
      e.organizationId = organizationId ∧ e.missionId = mission.id)).map (·.sequence)
    let event : AgentMissionEvent := {
      id := "mevt_" ++ given.uuid "mevt"
      organizationId := organizationId
      missionId := mission.id
      sequence := sequences.foldr max 0 + 1
      eventType := eventType
      eventKey := eventKey
      actorType := actorType
      actorId := actorId
      payload := payload
      payloadHash := payloadHash }
    declared (db.events.any (fun e => e.id = event.id)) "agent_mission_events_pkey"
    return (event, { db with events := db.events ++ [event] })

/-- What the content hash of an artifact covers -/
def artifactContent (kind title authority : String) (payload : List (String × Value))
    (sourceRefs : List Value) : Value :=
  .obj [("kind", .str kind), ("title", .str title), ("authority", .str authority),
    ("payload", .obj payload), ("source_refs", .seq sourceRefs)]

/-- `add_artifact` -/
def addArtifact (mission : AgentMission) (kind title authority : String)
    (payload : List (String × Value)) (sourceRefs : List Value) (createdBy : String)
    (taskId : Option String) (given : Given) (db : MissionDb) :
    Except MissionError (AgentMissionArtifact × MissionDb) := do
  let artifactHash ← missionHash rt (artifactContent kind title authority payload sourceRefs)
  match db.artifacts.find? (fun a => a.organizationId = organizationId ∧
      a.missionId = mission.id ∧ a.contentHash = artifactHash) with
  | some existing => return (existing, db)
  | none =>
    let artifact : AgentMissionArtifact := {
      id := "mart_" ++ given.uuid "mart"
      organizationId := organizationId
      missionId := mission.id
      taskId := taskId
      kind := kind
      title := title
      status := "READY"
      authority := authority
      payload := payload
      sourceRefs := sourceRefs
      contentHash := artifactHash
      createdBy := createdBy }
    declared (db.artifacts.any (fun a => a.id = artifact.id)) "agent_mission_artifacts_pkey"
    db.declaredTask taskId "agent_mission_artifacts_task_id_fkey"
    return (artifact, { db with artifacts := db.artifacts ++ [artifact] })

/-! ## Experiments -/

/-- The row that `plan_experiment` adds -/
def plannedExperiment (missionId id : String) (spec : ExperimentSpec) (taskId : Option String)
    (experimentHash : String) : AgentExperiment where
  id := id
  organizationId := organizationId
  missionId := missionId
  taskId := taskId
  candidateId := spec.candidateId
  status := .planned
  procedure := [("fixture_id", .str spec.fixtureId), ("steps", .strs spec.procedure)]
  environment := spec.environment
  successSignals := spec.successSignals.map (·.dump)
  observations := []
  limitations := []
  replaySpec := [("command", .strs spec.replayCommand), ("egress_hosts", .strs spec.egressHosts),
    ("timeout_seconds", .nat spec.timeoutSeconds), ("max_output_bytes", .nat spec.maxOutputBytes)]
  cost := []
  resultArtifactId := none
  contentHash := experimentHash
  startedAt := none
  completedAt := none

/-- `plan_experiment` -/
def planExperiment (mission : AgentMission) (spec : ExperimentSpec) (taskId : Option String)
    (given : Given) (db : MissionDb) : Except MissionError (AgentExperiment × MissionDb) := do
  if mission.organizationId ≠ organizationId then
    throw (.persistenceConflict "experiment tenant does not match transaction")
  let experimentHash ← missionHash rt spec.dump
  match db.experiments.find? (fun e => e.organizationId = organizationId ∧
      e.missionId = mission.id ∧ e.contentHash = experimentHash) with
  | some existing => return (existing, db)
  | none =>
    let remaining ← mission.remaining decimal
    if remaining < 1 then
      throw (.persistenceConflict "mission experiment budget is exhausted")
    let experiment := plannedExperiment organizationId mission.id ("mexp_" ++ given.uuid "mexp") spec
      taskId experimentHash
    declared (db.experiments.any (fun e => e.id = experiment.id)) "agent_experiments_pkey"
    db.declaredTask taskId "agent_experiments_task_id_fkey"
    let budget := mission.budget.set "experiments_remaining" (.int (remaining - 1))
    let written := ({ db with experiments := db.experiments ++ [experiment] }).updateMission mission.id
      (fun m => { m with budget := budget })
    let (_, written) ← written.appendEvent rt organizationId { mission with budget := budget }
      "experiment.planned" ("experiment-planned:" ++ experiment.id) "ROOT_AGENT" "sira-root-agent"
      [("experiment_id", .str experiment.id), ("spec_hash", .str experimentHash)] given
    return (experiment, written)

/-- `get_experiment` -/
def getExperiment (mission : AgentMission) (experimentId : String) (db : MissionDb) :
    Except MissionError AgentExperiment :=
  match db.experiments.find? (fun e => e.id = experimentId ∧ e.organizationId = organizationId ∧
      e.missionId = mission.id) with
  | some experiment => .ok experiment
  | none => .error (.recordNotFound "Agent experiment was not found")

/-- `start_experiment` -/
def startExperiment (mission : AgentMission) (experiment : AgentExperiment) (given : Given)
    (db : MissionDb) : Except MissionError (AgentExperiment × MissionDb) := do
  if experiment.status = .running then
    return (experiment, db)
  if experiment.status ≠ .planned then
    throw (.persistenceConflict "only a planned experiment can start")
  let start (e : AgentExperiment) : AgentExperiment :=
    { e with status := .running, startedAt := some given.now }
  let written := (db.updateExperiment experiment.id start).updateMission mission.id
    (fun m => { m with state := "EXPERIMENTING" })
  let (_, written) ← written.appendEvent rt organizationId { mission with state := "EXPERIMENTING" }
    "experiment.started" ("experiment-started:" ++ experiment.id) "SYSTEM" "experiment-coordinator"
    [("experiment_id", .str experiment.id)] given
  return (start experiment, written)

/-- The payload of the artifact of a result -/
def resultPayload (experimentId : String) (result : ExperimentResult) : List (String × Value) :=
  [("experiment_id", .str experimentId), ("status", .str result.status.value),
    ("observations", .seq (result.observations.map (·.dump))),
    ("limitations", .strs result.limitations), ("logs_reference", .opt .str result.logsReference),
    ("artifact_hash", .str result.artifactHash)]

def resultTitle (experiment : AgentExperiment) : String :=
  "Observed experiment for " ++ experiment.candidateId

def resultSources (experiment : AgentExperiment) : List Value :=
  [.obj [("type", .str "experiment"), ("id", .str experiment.id)]]

/-- `finish_experiment` -/
def finishExperiment (mission : AgentMission) (experiment : AgentExperiment)
    (result : ExperimentResult) (cost : Option (List (String × Value))) (given : Given)
    (db : MissionDb) : Except MissionError (AgentExperiment × MissionDb) := do
  if experiment.status.Terminal then
    if experiment.status ≠ result.status then
      throw (.persistenceConflict "experiment already has another terminal result")
    return (experiment, db)
  if experiment.status ≠ .running then
    throw (.persistenceConflict "only a running experiment can finish")
  let finish (e : AgentExperiment) : AgentExperiment :=
    { e with
      status := result.status
      observations := result.observations.map (·.dump)
      limitations := result.limitations
      cost := cost.getD []
      completedAt := some given.now }
  let written := db.updateExperiment experiment.id finish
  let (artifact, written) ← written.addArtifact rt organizationId mission "experiment_result"
    (resultTitle experiment) "OBSERVED" (resultPayload experiment.id result)
    (resultSources experiment) "experiment-coordinator" experiment.taskId given
  let link (e : AgentExperiment) : AgentExperiment := { e with resultArtifactId := some artifact.id }
  let written := written.updateExperiment experiment.id link
  let (_, written) ← written.appendEvent rt organizationId mission "experiment.finished"
    ("experiment-finished:" ++ experiment.id ++ ":" ++ result.artifactHash) "SYSTEM"
    "experiment-coordinator"
    [("experiment_id", .str experiment.id), ("status", .str result.status.value),
      ("result_artifact_id", .str artifact.id), ("result_hash", .str result.artifactHash)] given
  return (link (finish experiment), written)

end Repository

end MissionDb

end Persistence
