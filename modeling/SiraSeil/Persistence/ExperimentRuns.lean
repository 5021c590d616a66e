-- SUMMARY: Runs of a mission's experiments: budget that remains and experiments stored add up, planning again changes nothing, and what finishing again checks.
import SiraSeil.Domain.Digests
import SiraSeil.Library.Transactions
import SiraSeil.Persistence.MissionRepository

/-!
# Runs of experiments

Every transaction of `sira_worker/experiment_coordinator.py` locks its mission, so that they come
one after the other. The identity of a result is the content hash of its artifact.
-/

namespace Persistence

open Domain Transactions Raising

/-! ## Transactions -/

inductive ExperimentCall
  | plan (spec : ExperimentSpec) (taskId : Option String) (given : Given)
  | start (experimentId : String) (given : Given)
  | finish (experimentId : String) (result : ExperimentResult)
      (cost : Option (List (String × Value))) (given : Given)

section Calls

variable (rt : Runtime) (decimal : Char → Option Nat) (organizationId missionId : String)

/-- The rows of a call are loaded in its transaction, under their locks. -/
def transactExperiment (call : ExperimentCall) (db : MissionDb) :
    Except MissionError (AgentExperiment × MissionDb) := do
  let mission ← db.get organizationId missionId
  match call with
  | .plan spec taskId given => db.planExperiment rt decimal organizationId mission spec taskId given
  | .start experimentId given =>
    let experiment ← db.getExperiment organizationId mission experimentId
    db.startExperiment rt organizationId mission experiment given
  | .finish experimentId result cost given =>
    let experiment ← db.getExperiment organizationId mission experimentId
    db.finishExperiment rt organizationId mission experiment result cost given

/-- The experiments that are stored for the mission -/
def experimentsOf (db : MissionDb) : List AgentExperiment :=
  db.experiments.filter (fun e => e.organizationId = organizationId ∧ e.missionId = missionId)

/-- What the artifact of a result is hashed from -/
def resultContent (e : AgentExperiment) (result : ExperimentResult) : Value :=
  MissionDb.artifactContent "experiment_result" (MissionDb.resultTitle e) "OBSERVED"
    (MissionDb.resultPayload e.id result) (MissionDb.resultSources e)

/-- The stored result of an experiment is `result`. -/
def Stores (db : MissionDb) (e : AgentExperiment) (result : ExperimentResult) : Prop :=
  ∃ a ∈ db.artifacts, e.resultArtifactId = some a.id ∧
    missionHash rt (resultContent e result) = .ok a.contentHash

/-- A call of the run finished the experiment, and its result is in the rows. -/
structure Finished (calls : List ExperimentCall) (db : MissionDb) (e : AgentExperiment)
    (result : ExperimentResult) : Prop where
  submitted : ∃ cost given, ExperimentCall.finish e.id result cost given ∈ calls
  status : e.status = result.status
  observations : e.observations = result.observations.map (·.dump)
  limitations : e.limitations = result.limitations
  stores : Stores rt db e result

/-- The mission's budget and its experiments, after some calls -/
structure Budgeted (initial : Int) (calls : List ExperimentCall) (db : MissionDb) : Prop where
  keyed : Table.Keyed (fun (e : AgentExperiment) => e.id) db.experiments
  conserved : ∃ mission remaining, db.get organizationId missionId = .ok mission ∧
    mission.remaining decimal = .ok remaining ∧
    remaining + (experimentsOf organizationId missionId db).length = initial ∧
    (0 ≤ initial → 0 ≤ remaining)
  finished : ∀ e ∈ experimentsOf organizationId missionId db, e.status.Terminal →
    ∃ result, Finished rt calls db e result

end Calls

variable {rt : Runtime} {decimal : Char → Option Nat} {organizationId missionId : String}
  {db db' : MissionDb} {mission : AgentMission} {e : AgentExperiment}

/-! ## What the operations write -/

theorem MissionDb.get_eq_ok (h : db.get organizationId missionId = .ok mission) :
    db.missions.find? (fun m => m.id = missionId ∧ m.organizationId = organizationId) =
      some mission ∧ mission.id = missionId ∧ mission.organizationId = organizationId := by
  unfold MissionDb.get at h
  split at h
  · next found hfound =>
    cases h
    exact ⟨hfound, by simpa using List.find?_some hfound⟩
  · cases h

theorem MissionDb.get_update {f : AgentMission → AgentMission}
    (h : db.get organizationId missionId = .ok mission) (hid : ∀ m, (f m).id = m.id)
    (horg : ∀ m, (f m).organizationId = m.organizationId)
    (hmissions : db'.missions = Table.update (·.id) mission.id f db.missions) :
    db'.get organizationId missionId = .ok (f mission) := by
  obtain ⟨hfind, -, -⟩ := get_eq_ok h
  unfold MissionDb.get
  rw [hmissions, Table.find?_update (fun m => by rw [hid, horg]), hfind]
  simp

theorem MissionDb.get_congr (h : db'.missions = db.missions) :
    db'.get organizationId missionId = db.get organizationId missionId := by
  unfold MissionDb.get
  rw [h]

theorem MissionDb.appendEvent_eq_ok {eventType eventKey actorType actorId : String}
    {payload : List (String × Value)} {given : Given} {event : AgentMissionEvent}
    (h : db.appendEvent rt organizationId mission eventType eventKey actorType actorId payload given =
      .ok (event, db')) : ∃ events, db' = { db with events := events } := by
  unfold appendEvent at h
  obtain ⟨-, h⟩ := unless_throw_eq_ok.mp h
  obtain ⟨hash, -, h⟩ := bind_eq_ok.mp h
  split at h
  · obtain ⟨-, h⟩ := unless_throw_eq_ok.mp h
    cases h
    exact ⟨db.events, rfl⟩
  · obtain ⟨-, -, h⟩ := bind_eq_ok.mp h
    cases h
    exact ⟨_, rfl⟩

theorem MissionDb.addArtifact_eq_ok {kind title authority createdBy : String}
    {payload : List (String × Value)} {sourceRefs : List Value} {taskId : Option String}
    {given : Given} {artifact : AgentMissionArtifact}
    (h : db.addArtifact rt organizationId mission kind title authority payload sourceRefs createdBy
      taskId given = .ok (artifact, db')) :
    ∃ artifacts, db' = { db with artifacts := artifacts } ∧ db.artifacts ⊆ artifacts ∧
      artifact ∈ artifacts ∧
      missionHash rt (artifactContent kind title authority payload sourceRefs) =
        .ok artifact.contentHash := by
  unfold addArtifact at h
  obtain ⟨hash, hhash, h⟩ := bind_eq_ok.mp h
  split at h
  · next existing hexisting =>
    cases h
    have hfound : artifact.organizationId = organizationId ∧ artifact.missionId = mission.id ∧
        artifact.contentHash = hash := by simpa using List.find?_some hexisting
    refine ⟨db.artifacts, rfl, List.Subset.refl _, List.mem_of_find?_eq_some hexisting, ?_⟩
    rw [hhash, hfound.2.2]
  · obtain ⟨-, -, h⟩ := bind_eq_ok.mp h
    obtain ⟨-, -, h⟩ := bind_eq_ok.mp h
    cases h
    exact ⟨_, rfl, List.subset_append_left _ _, by simp, hhash⟩

theorem update_twice {f g : AgentExperiment → AgentExperiment} {rows : List AgentExperiment}
    {id : String} (hg : ∀ e, (g e).id = e.id) :
    Table.update (·.id) id f (Table.update (·.id) id g rows) =
      Table.update (·.id) id (fun e => f (g e)) rows := by
  unfold Table.update
  rw [List.map_map]
  apply List.map_congr_left
  intro e _
  by_cases h : e.id = id <;> simp [h, hg]

/-- Planning returns an experiment with the hash of the spec, and a new one takes one from the
    budget. -/
theorem MissionDb.planExperiment_eq_ok {spec : ExperimentSpec} {taskId : Option String}
    {given : Given}
    (h : db.planExperiment rt decimal organizationId mission spec taskId given = .ok (e, db')) :
    missionHash rt spec.dump = .ok e.contentHash ∧ e.organizationId = organizationId ∧
      e.missionId = mission.id ∧
      (e ∈ db.experiments ∧ db' = db ∨
        ∃ remaining events, mission.remaining decimal = .ok remaining ∧ 1 ≤ remaining ∧
          e.status = .planned ∧ (∀ old ∈ db.experiments, old.id ≠ e.id) ∧
          db' = { db.updateMission mission.id (fun m => { m with
                    budget := mission.budget.set "experiments_remaining" (.int (remaining - 1)) }) with
            experiments := db.experiments ++ [e]
            events := events }) := by
  unfold planExperiment at h
  obtain ⟨-, h⟩ := unless_throw_eq_ok.mp h
  obtain ⟨hash, hhash, h⟩ := bind_eq_ok.mp h
  split at h
  · next existing hexisting =>
    cases h
    have hfound : e.organizationId = organizationId ∧ e.missionId = mission.id ∧
        e.contentHash = hash := by simpa using List.find?_some hexisting
    refine ⟨by rw [hhash, hfound.2.2], hfound.1, hfound.2.1, .inl ⟨?_, rfl⟩⟩
    exact List.mem_of_find?_eq_some hexisting
  · obtain ⟨remaining, hremaining, h⟩ := bind_eq_ok.mp h
    obtain ⟨hbudget, h⟩ := unless_throw_eq_ok.mp h
    obtain ⟨_, hnew, h⟩ := bind_eq_ok.mp h
    obtain ⟨-, -, h⟩ := bind_eq_ok.mp h
    obtain ⟨⟨event, written⟩, hevent, h⟩ := bind_eq_ok.mp h
    obtain ⟨events, rfl⟩ := appendEvent_eq_ok hevent
    cases h
    refine ⟨hhash, rfl, rfl, .inr ⟨remaining, events, hremaining, by omega, rfl, ?_, rfl⟩⟩
    simpa using declared_eq_ok.mp hnew

theorem MissionDb.getExperiment_eq_ok {experimentId : String}
    (h : db.getExperiment organizationId mission experimentId = .ok e) :
    e ∈ db.experiments ∧ e.id = experimentId ∧ e.organizationId = organizationId ∧
      e.missionId = mission.id := by
  unfold getExperiment at h
  split at h
  · next found hfound =>
    cases h
    exact ⟨List.mem_of_find?_eq_some hfound, by simpa using List.find?_some hfound⟩
  · cases h

/-- What starting writes to the row of an experiment -/
def startedRow (given : Given) (e : AgentExperiment) : AgentExperiment :=
  { e with status := .running, startedAt := some given.now }

theorem MissionDb.startExperiment_eq_ok {given : Given} {e' : AgentExperiment}
    (h : db.startExperiment rt organizationId mission e given = .ok (e', db')) :
    e.status = .running ∧ e' = e ∧ db' = db ∨
      ∃ events, db' = { (db.updateExperiment e.id (startedRow given)).updateMission mission.id
        (fun m => { m with state := "EXPERIMENTING" }) with events := events } := by
  unfold startExperiment at h
  split at h
  · next hrunning =>
    cases h
    exact .inl ⟨hrunning, rfl, rfl⟩
  · obtain ⟨-, h⟩ := unless_throw_eq_ok.mp h
    obtain ⟨⟨event, written⟩, hevent, h⟩ := bind_eq_ok.mp h
    obtain ⟨events, rfl⟩ := appendEvent_eq_ok hevent
    cases h
    exact .inr ⟨events, rfl⟩

/-- What finishing writes to the row of an experiment -/
def finishedRow (result : ExperimentResult) (cost : Option (List (String × Value))) (given : Given)
    (artifactId : String) (e : AgentExperiment) : AgentExperiment :=
  { e with
    status := result.status
    observations := result.observations.map (·.dump)
    limitations := result.limitations
    cost := cost.getD []
    completedAt := some given.now
    resultArtifactId := some artifactId }

/-- Finishing leaves the store alone, or a running experiment gets the result, with an artifact of
    its content. -/
theorem MissionDb.finishExperiment_eq_ok {result : ExperimentResult}
    {cost : Option (List (String × Value))} {given : Given} {e' : AgentExperiment}
    (h : db.finishExperiment rt organizationId mission e result cost given = .ok (e', db')) :
    e.status.Terminal ∧ e.status = result.status ∧ e' = e ∧ db' = db ∨
      ∃ artifact artifacts events, db.artifacts ⊆ artifacts ∧ artifact ∈ artifacts ∧
        missionHash rt (resultContent e result) = .ok artifact.contentHash ∧
        db' = { db.updateExperiment e.id (finishedRow result cost given artifact.id) with
          artifacts := artifacts
          events := events } := by
  unfold finishExperiment at h
  split at h
  · next hterminal =>
    obtain ⟨hstatus, h⟩ := unless_throw_eq_ok.mp h
    cases h
    exact .inl ⟨hterminal, not_not.mp hstatus, rfl, rfl⟩
  · obtain ⟨-, h⟩ := unless_throw_eq_ok.mp h
    obtain ⟨⟨artifact, stored⟩, hartifact, h⟩ := bind_eq_ok.mp h
    obtain ⟨⟨event, written⟩, hevent, h⟩ := bind_eq_ok.mp h
    obtain ⟨artifacts, rfl, hsub, hmem, hhash⟩ := addArtifact_eq_ok hartifact
    obtain ⟨events, rfl⟩ := appendEvent_eq_ok hevent
    cases h
    refine .inr ⟨artifact, artifacts, events, hsub, hmem, hhash, ?_⟩
    -- The row is written before the artifact is added, and linked to it after.
    exact congrArg (fun rows => MissionDb.mk db.missions db.tasks rows artifacts events)
      (update_twice (fun _ => rfl))

/-! ## One transaction -/

theorem mem_experimentsOf : e ∈ experimentsOf organizationId missionId db ↔
    e ∈ db.experiments ∧ e.organizationId = organizationId ∧ e.missionId = missionId := by
  simp [experimentsOf]

theorem transact_eq_ok {call : ExperimentCall}
    (h : transactExperiment rt decimal organizationId missionId call db = .ok (e, db')) :
    ∃ mission, db.get organizationId missionId = .ok mission ∧ mission.id = missionId ∧
      match call with
      | .plan spec taskId given =>
        db.planExperiment rt decimal organizationId mission spec taskId given = .ok (e, db')
      | .start id given => ∃ old ∈ experimentsOf organizationId missionId db, old.id = id ∧
        db.startExperiment rt organizationId mission old given = .ok (e, db')
      | .finish id result cost given => ∃ old ∈ experimentsOf organizationId missionId db,
        old.id = id ∧
          db.finishExperiment rt organizationId mission old result cost given = .ok (e, db') := by
  unfold transactExperiment at h
  obtain ⟨mission, hget, h⟩ := bind_eq_ok.mp h
  obtain ⟨-, hid, -⟩ := MissionDb.get_eq_ok hget
  refine ⟨mission, hget, hid, ?_⟩
  cases call with
  | plan spec taskId given => exact h
  | start id given =>
    obtain ⟨old, hold, h⟩ := bind_eq_ok.mp h
    obtain ⟨hmem, hown, horg, hmission⟩ := MissionDb.getExperiment_eq_ok hold
    exact ⟨old, mem_experimentsOf.mpr ⟨hmem, horg, hmission.trans hid⟩, hown, h⟩
  | finish id result cost given =>
    obtain ⟨old, hold, h⟩ := bind_eq_ok.mp h
    obtain ⟨hmem, hown, horg, hmission⟩ := MissionDb.getExperiment_eq_ok hold
    exact ⟨old, mem_experimentsOf.mpr ⟨hmem, horg, hmission.trans hid⟩, hown, h⟩

section Steps

variable {initial : Int} {calls : List ExperimentCall} {call : ExperimentCall}

theorem Finished.mono {result : ExperimentResult} (h : Finished rt calls db e result)
    (hsub : db.artifacts ⊆ db'.artifacts) : Finished rt (calls ++ [call]) db' e result where
  submitted := by
    obtain ⟨cost, given, hmem⟩ := h.submitted
    exact ⟨cost, given, List.mem_append_left _ hmem⟩
  status := h.status
  observations := h.observations
  limitations := h.limitations
  stores := by
    obtain ⟨a, ha, hid, hhash⟩ := h.stores
    exact ⟨a, hsub ha, hid, hhash⟩

theorem Budgeted.kept (h : Budgeted rt decimal organizationId missionId initial calls db) :
    Budgeted rt decimal organizationId missionId initial (calls ++ [call]) db where
  keyed := h.keyed
  conserved := h.conserved
  finished e he hterminal := by
    obtain ⟨result, hresult⟩ := h.finished e he hterminal
    exact ⟨result, hresult.mono (List.Subset.refl _)⟩

theorem Budgeted.plan (h : Budgeted rt decimal organizationId missionId initial calls db)
    (hget : db.get organizationId missionId = .ok mission) {remaining : Int}
    (hremaining : mission.remaining decimal = .ok remaining) (hpositive : 1 ≤ remaining)
    (hplanned : e.status = .planned) (hnew : ∀ old ∈ db.experiments, old.id ≠ e.id)
    (horg : e.organizationId = organizationId) (hmission : e.missionId = missionId)
    (hmissions : db'.missions = Table.update (·.id) mission.id (fun m => { m with
      budget := mission.budget.set "experiments_remaining" (.int (remaining - 1)) }) db.missions)
    (hexperiments : db'.experiments = db.experiments ++ [e])
    (hartifacts : db'.artifacts = db.artifacts) :
    Budgeted rt decimal organizationId missionId initial (calls ++ [call]) db' := by
  have hof : experimentsOf organizationId missionId db' =
      experimentsOf organizationId missionId db ++ [e] := by
    simp [experimentsOf, hexperiments, horg, hmission]
  refine ⟨?_, ?_, ?_⟩
  · rw [hexperiments]
    apply h.keyed.append
    exact hnew
  · obtain ⟨mission', remaining', hget', hremaining', hsum, hnonneg⟩ := h.conserved
    obtain rfl : mission = mission' := Except.ok.inj (hget.symm.trans hget')
    obtain rfl : remaining = remaining' := Except.ok.inj (hremaining.symm.trans hremaining')
    have hspent := MissionDb.get_update (f := fun m => { m with
      budget := mission.budget.set "experiments_remaining" (.int (remaining - 1)) }) hget
      (fun _ => rfl) (fun _ => rfl) hmissions
    refine ⟨_, remaining - 1, hspent, ?_, ?_, ?_⟩
    · simp [AgentMission.remaining, Dict.get?_set]
    · rw [hof, List.length_append, List.length_singleton]
      omega
    · omega
  · intro old hold hterminal
    rw [hof, List.mem_append, List.mem_singleton] at hold
    rcases hold with hold | rfl
    · obtain ⟨result, hresult⟩ := h.finished old hold hterminal
      exact ⟨result, hresult.mono (hartifacts ▸ List.Subset.refl _)⟩
    · -- The new experiment has not been finished.
      rw [hplanned] at hterminal
      cases hterminal with
      | inl h => cases h
      | inr h => cases h <;> contradiction

theorem Budgeted.rewrite (h : Budgeted rt decimal organizationId missionId initial calls db)
    {id : String} (f : AgentExperiment → AgentExperiment) (hid : ∀ a, (f a).id = a.id)
    (hscope : ∀ a, (f a).organizationId = a.organizationId ∧ (f a).missionId = a.missionId)
    (hexperiments : db'.experiments = Table.update (·.id) id f db.experiments)
    (hget : ∀ mission, db.get organizationId missionId = .ok mission →
      ∃ mission', db'.get organizationId missionId = .ok mission' ∧ mission'.budget = mission.budget)
    (hsub : db.artifacts ⊆ db'.artifacts)
    (hrow : ∀ a ∈ db.experiments, a.id = id → (f a).status.Terminal →
      ∃ result, Finished rt (calls ++ [call]) db' (f a) result) :
    Budgeted rt decimal organizationId missionId initial (calls ++ [call]) db' := by
  have hof : experimentsOf organizationId missionId db' =
      Table.update (·.id) id f (experimentsOf organizationId missionId db) := by
    unfold experimentsOf
    rw [hexperiments, Table.filter_update (fun a => by simp [hscope a])]
  refine ⟨?_, ?_, ?_⟩
  · rw [hexperiments]
    exact h.keyed.update hid
  · obtain ⟨mission, remaining, hmission, hremaining, hsum, hnonneg⟩ := h.conserved
    obtain ⟨mission', hmission', hbudget⟩ := hget mission hmission
    refine ⟨mission', remaining, hmission', ?_, ?_, hnonneg⟩
    · rw [← hremaining]
      simp [AgentMission.remaining, hbudget]
    · rw [hof, Table.update, List.length_map]
      exact hsum
  · intro a ha hterminal
    rw [hof] at ha
    rcases Table.mem_update.mp ha with ⟨old, hold, hown, rfl⟩ | ⟨ha, -⟩
    · exact hrow old (mem_experimentsOf.mp hold).1 hown hterminal
    · obtain ⟨result, hresult⟩ := h.finished a ha hterminal
      exact ⟨result, hresult.mono hsub⟩

theorem budgeted_of_transact (h : Budgeted rt decimal organizationId missionId initial calls db)
    (hcommit : transactExperiment rt decimal organizationId missionId call db = .ok (e, db')) :
    Budgeted rt decimal organizationId missionId initial (calls ++ [call]) db' := by
  obtain ⟨mission, hget, hid, hcall⟩ := transact_eq_ok hcommit
  cases call with
  | plan spec taskId given =>
    obtain ⟨-, horg, hmission, hcases⟩ := MissionDb.planExperiment_eq_ok hcall
    rcases hcases with ⟨-, rfl⟩ | ⟨remaining, events, hremaining, hpositive, hplanned, hnew, rfl⟩
    · exact h.kept
    · exact h.plan hget hremaining hpositive hplanned hnew horg (hmission.trans hid) rfl rfl rfl
  | start id given =>
    obtain ⟨old, -, -, hstart⟩ := hcall
    rcases MissionDb.startExperiment_eq_ok hstart with ⟨-, -, rfl⟩ | ⟨events, rfl⟩
    · exact h.kept
    · refine h.rewrite (startedRow given) (fun _ => rfl) (fun _ => ⟨rfl, rfl⟩) rfl ?_
        (List.Subset.refl _) ?_
      · intro m hm
        obtain rfl : mission = m := Except.ok.inj (hget.symm.trans hm)
        exact ⟨_, MissionDb.get_update (f := fun m => { m with state := "EXPERIMENTING" }) hget
          (fun _ => rfl) (fun _ => rfl) rfl, rfl⟩
      · -- A running experiment is not finished.
        intro a _ _ hterminal
        cases hterminal with
        | inl h => cases h
        | inr h => cases h <;> contradiction
  | finish id result cost given =>
    obtain ⟨old, hold, rfl, hfinish⟩ := hcall
    rcases MissionDb.finishExperiment_eq_ok hfinish with
      ⟨-, -, -, rfl⟩ | ⟨artifact, artifacts, events, hsub, hmem, hhash, rfl⟩
    · exact h.kept
    · refine h.rewrite (finishedRow result cost given artifact.id) (fun _ => rfl)
        (fun _ => ⟨rfl, rfl⟩) rfl ?_ hsub ?_
      · intro m hm
        exact ⟨m, (MissionDb.get_congr rfl).trans hm, rfl⟩
      · intro a ha hown _
        obtain rfl : a = old := h.keyed.eq ha (mem_experimentsOf.mp hold).1 hown
        exact ⟨result, ⟨cost, given, by simp [finishedRow]⟩, rfl, rfl, rfl, artifact, hmem, rfl, hhash⟩

theorem hash_of_transact {hash : String}
    (hcommit : transactExperiment rt decimal organizationId missionId call db = .ok (e, db'))
    (hstored : ∃ old ∈ experimentsOf organizationId missionId db, old.contentHash = hash) :
    ∃ old ∈ experimentsOf organizationId missionId db', old.contentHash = hash := by
  obtain ⟨old, hold, rfl⟩ := hstored
  obtain ⟨hmem, hscope⟩ := mem_experimentsOf.mp hold
  simp only [mem_experimentsOf]
  -- An update of the experiments keeps the hashes and the mission.
  have hupdate : ∀ (id : String) (f : AgentExperiment → AgentExperiment),
      (∀ a, (f a).organizationId = a.organizationId ∧ (f a).missionId = a.missionId ∧
        (f a).contentHash = a.contentHash) →
      ∃ a ∈ Table.update (·.id) id f db.experiments,
        (a.organizationId = organizationId ∧ a.missionId = missionId) ∧
          a.contentHash = old.contentHash := by
    intro id f hf
    apply Table.exists_update hmem ⟨hscope, rfl⟩
    intro _
    obtain ⟨horg, hmission, hhash⟩ := hf old
    exact ⟨⟨horg.trans hscope.1, hmission.trans hscope.2⟩, hhash⟩
  obtain ⟨mission, -, -, hcall⟩ := transact_eq_ok hcommit
  cases call with
  | plan spec taskId given =>
    obtain ⟨-, -, -, hcases⟩ := MissionDb.planExperiment_eq_ok hcall
    rcases hcases with ⟨-, rfl⟩ | ⟨remaining, events, -, -, -, -, rfl⟩
    · exact ⟨old, ⟨hmem, hscope⟩, rfl⟩
    · exact ⟨old, ⟨List.mem_append_left _ hmem, hscope⟩, rfl⟩
  | start id given =>
    obtain ⟨started, -, -, hstart⟩ := hcall
    rcases MissionDb.startExperiment_eq_ok hstart with ⟨-, -, rfl⟩ | ⟨events, rfl⟩
    · exact ⟨old, ⟨hmem, hscope⟩, rfl⟩
    · obtain ⟨a, ha, hscope, hhash⟩ := hupdate started.id (startedRow given)
        (fun _ => ⟨rfl, rfl, rfl⟩)
      exact ⟨a, ⟨ha, hscope⟩, hhash⟩
  | finish id result cost given =>
    obtain ⟨finished, -, rfl, hfinish⟩ := hcall
    rcases MissionDb.finishExperiment_eq_ok hfinish with
      ⟨-, -, -, rfl⟩ | ⟨artifact, artifacts, events, -, -, -, rfl⟩
    · exact ⟨old, ⟨hmem, hscope⟩, rfl⟩
    · obtain ⟨a, ha, hscope, hhash⟩ := hupdate finished.id
        (finishedRow result cost given artifact.id) (fun _ => ⟨rfl, rfl, rfl⟩)
      exact ⟨a, ⟨ha, hscope⟩, hhash⟩

end Steps

/-! ## Runs -/

section Runs

/-- The transactions of a run -/
abbrev runExperiments (rt : Runtime) (decimal : Char → Option Nat) (organizationId missionId : String)
    (db : MissionDb) (calls : List ExperimentCall) : MissionDb :=
  run (transactExperiment rt decimal organizationId missionId) db calls

/-- A mission with a readable budget, for which no experiment is stored -/
structure Planless (decimal : Char → Option Nat) (organizationId missionId : String) (initial : Int)
    (db : MissionDb) : Prop where
  keyed : Table.Keyed (fun (e : AgentExperiment) => e.id) db.experiments
  mission : ∃ mission, db.get organizationId missionId = .ok mission ∧
    mission.remaining decimal = .ok initial
  planless : experimentsOf organizationId missionId db = []

/-- Finishing a finished experiment returns only for the stored result, and changes nothing. -/
def FinishesOnce (rt : Runtime) (decimal : Char → Option Nat) (organizationId missionId : String)
    (db : MissionDb) (e : AgentExperiment) (result : ExperimentResult)
    (cost : Option (List (String × Value))) (given : Given) : Prop :=
  ((∃ r, transactExperiment rt decimal organizationId missionId (.finish e.id result cost given) db =
      .ok r) → Stores rt db e result) ∧
    Transactions.after (transactExperiment rt decimal organizationId missionId) db
      (.finish e.id result cost given) = db

variable {initial : Int} {calls : List ExperimentCall}

theorem budgeted_run (h : Planless decimal organizationId missionId initial db)
    (calls : List ExperimentCall) :
    Budgeted rt decimal organizationId missionId initial calls
      (runExperiments rt decimal organizationId missionId db calls) := by
  apply @run_history _ _ _ _ _ _ _ (fun _ _ => True)
  · intro done call s e s' hs _ hcommit
    exact budgeted_of_transact hs hcommit
  · intro done call s hs
    exact hs.kept
  · obtain ⟨mission, hmission, hinitial⟩ := h.mission
    refine ⟨h.keyed, ⟨mission, initial, hmission, hinitial, ?_, id⟩, ?_⟩
    · simp [h.planless]
    · simp [h.planless]
  · -- Every call is allowed.
    have hall : ∀ s, Along (transactExperiment rt decimal organizationId missionId)
        (fun _ _ => True) s calls := by
      induction calls with
      | nil => exact fun _ => trivial
      | cons call calls ih => exact fun s => ⟨trivial, ih _⟩
    exact hall db

theorem transact_plan_stored {spec : ExperimentSpec} {hash : String}
    (hget : db.get organizationId missionId = .ok mission) (hhash : missionHash rt spec.dump = .ok hash)
    (hstored : ∃ e ∈ experimentsOf organizationId missionId db, e.contentHash = hash)
    (taskId : Option String) (given : Given) :
    ∃ e ∈ experimentsOf organizationId missionId db, e.contentHash = hash ∧
      transactExperiment rt decimal organizationId missionId (.plan spec taskId given) db =
        .ok (e, db) := by
  obtain ⟨-, hid, horg⟩ := MissionDb.get_eq_ok hget
  have hplan : transactExperiment rt decimal organizationId missionId (.plan spec taskId given) db =
      db.planExperiment rt decimal organizationId mission spec taskId given := by
    unfold transactExperiment
    rw [hget, ok_bind]
  rw [hplan, MissionDb.planExperiment, if_neg (not_not.mpr horg), hhash, ok_bind, hid]
  split
  · next found hfound =>
    have hown : found.organizationId = organizationId ∧ found.missionId = missionId ∧
        found.contentHash = hash := by simpa using List.find?_some hfound
    exact ⟨found, mem_experimentsOf.mpr ⟨List.mem_of_find?_eq_some hfound, hown.1, hown.2.1⟩,
      hown.2.2, rfl⟩
  · next hnone =>
    obtain ⟨e, he, rfl⟩ := hstored
    obtain ⟨hmem, horg, hmission⟩ := mem_experimentsOf.mp he
    have hnot := List.find?_eq_none.mp hnone e hmem
    simp [horg, hmission] at hnot

theorem transact_finish_terminal (hget : db.get organizationId missionId = .ok mission)
    (hkeyed : Table.Keyed (fun (e : AgentExperiment) => e.id) db.experiments)
    (he : e ∈ experimentsOf organizationId missionId db) (hterminal : e.status.Terminal)
    (result : ExperimentResult) (cost : Option (List (String × Value))) (given : Given) :
    transactExperiment rt decimal organizationId missionId (.finish e.id result cost given) db =
      if e.status = result.status then .ok (e, db)
      else .error (.persistenceConflict "experiment already has another terminal result") := by
  obtain ⟨-, hid, -⟩ := MissionDb.get_eq_ok hget
  obtain ⟨hmem, horg, hmission⟩ := mem_experimentsOf.mp he
  have hfind : db.experiments.find? (fun a => a.id = e.id ∧ a.organizationId = organizationId ∧
      a.missionId = mission.id) = some e := by
    apply hkeyed.find?_eq hmem
    · simp [horg, hmission, hid]
    · intro a _ ha
      simp only [decide_eq_true_eq] at ha
      exact ha.1
  unfold transactExperiment MissionDb.getExperiment MissionDb.finishExperiment
  rw [hget, ok_bind]
  simp only [hfind, ok_bind, if_pos hterminal, ne_eq, ite_not]
  rfl

/-- In every run of the experiments of a mission, the budget that remains and the experiments that
    are stored add up to the initial budget, planning a spec again changes nothing, and finishing
    again is right exactly for a result of another status and for the stored one. -/
theorem experiment_budget_conserved (h : Planless decimal organizationId missionId initial db)
    (calls : List ExperimentCall) :
    (∃ mission remaining,
      (runExperiments rt decimal organizationId missionId db calls).get organizationId missionId =
        .ok mission ∧ mission.remaining decimal = .ok remaining ∧
      remaining + (experimentsOf organizationId missionId
        (runExperiments rt decimal organizationId missionId db calls)).length = initial ∧
      (0 ≤ initial → 0 ≤ remaining)) ∧
    (∀ before spec taskId given later r,
      calls = before ++ ExperimentCall.plan spec taskId given :: later →
      transactExperiment rt decimal organizationId missionId (.plan spec taskId given)
        (runExperiments rt decimal organizationId missionId db before) = .ok r →
      ∀ taskId' given', ∃ e ∈ experimentsOf organizationId missionId
          (runExperiments rt decimal organizationId missionId db calls),
        missionHash rt spec.dump = .ok e.contentHash ∧
        transactExperiment rt decimal organizationId missionId (.plan spec taskId' given')
            (runExperiments rt decimal organizationId missionId db calls) =
          .ok (e, runExperiments rt decimal organizationId missionId db calls)) ∧
    ∀ e ∈ experimentsOf organizationId missionId
        (runExperiments rt decimal organizationId missionId db calls), e.status.Terminal →
      (∃ result, Finished rt calls (runExperiments rt decimal organizationId missionId db calls) e
        result) ∧
      ∀ result cost given,
        FinishesOnce rt decimal organizationId missionId
            (runExperiments rt decimal organizationId missionId db calls) e result cost given ↔
          e.status ≠ result.status ∨
            Stores rt (runExperiments rt decimal organizationId missionId db calls) e result := by
  have hafter := @budgeted_run rt decimal organizationId missionId db initial h calls
  obtain ⟨mission, remaining, hget, hremaining, hsum, hnonneg⟩ := hafter.conserved
  refine ⟨⟨mission, remaining, hget, hremaining, hsum, hnonneg⟩, ?_, ?_⟩
  · rintro before spec taskId given later ⟨e, s⟩ hcalls hplan taskId' given'
    -- The experiment is stored from the first planning on.
    obtain ⟨mission', -, hid', hcommit⟩ := transact_eq_ok hplan
    obtain ⟨hhash, horg, hmission, hcases⟩ := MissionDb.planExperiment_eq_ok hcommit
    have hstored : ∃ old ∈ experimentsOf organizationId missionId s, old.contentHash = e.contentHash := by
      refine ⟨e, mem_experimentsOf.mpr ⟨?_, horg, hmission.trans hid'⟩, rfl⟩
      rcases hcases with ⟨hmem, rfl⟩ | ⟨_, _, -, -, -, -, rfl⟩
      · exact hmem
      · exact List.mem_append_right _ List.mem_cons_self
    have hlater : ∃ old ∈ experimentsOf organizationId missionId
        (runExperiments rt decimal organizationId missionId s later),
        old.contentHash = e.contentHash := by
      apply run_induction (I := fun s => ∃ old ∈ experimentsOf organizationId missionId s,
        old.contentHash = e.contentHash)
      · intro call s a s' hs hcommit
        exact hash_of_transact hcommit hs
      · exact hstored
    have hrun : runExperiments rt decimal organizationId missionId db calls =
        runExperiments rt decimal organizationId missionId s later := by
      rw [hcalls, runExperiments, run_append]
      show run _ (Transactions.after _ _ _) later = _
      rw [after_of_ok hplan]
    rw [← hrun] at hlater
    obtain ⟨found, hfound, hown, hagain⟩ := transact_plan_stored hget hhash hlater taskId' given'
    exact ⟨found, hfound, hown ▸ hhash, hagain⟩
  · intro e he hterminal
    refine ⟨hafter.finished e he hterminal, ?_⟩
    intro result cost given
    have hfinish := @transact_finish_terminal rt decimal _ _ _ _ _ hget hafter.keyed he
      hterminal result cost given
    unfold FinishesOnce
    by_cases hstatus : e.status = result.status
    · rw [if_pos hstatus] at hfinish
      constructor
      · rintro ⟨hreturns, -⟩
        exact .inr (hreturns ⟨_, hfinish⟩)
      · rintro (hne | hstores)
        · exact absurd hstatus hne
        · exact ⟨fun _ => hstores, after_of_ok hfinish⟩
    · rw [if_neg hstatus] at hfinish
      constructor
      · exact fun _ => .inl hstatus
      · intro _
        refine ⟨?_, after_of_error hfinish⟩
        rintro ⟨r, hr⟩
        rw [hfinish] at hr
        cases hr

end Runs

instance (rt : Runtime) (db : MissionDb) (e : AgentExperiment) (result : ExperimentResult) :
    Decidable (Stores rt db e result) :=
  inferInstanceAs (Decidable (∃ a ∈ db.artifacts, _ ∧ _))

namespace ExperimentSample

def given (uuid : String) : Given := ⟨0, fun _ => uuid⟩

def digit (c : Char) : Option Nat :=
  if c.isDigit then some (c.toNat - '0'.toNat) else none

/-- A mission that may run one experiment -/
def funded : MissionDb where
  missions := [⟨"m1", "org1", "PLANNING", .ofList [("experiments_remaining", .int 1)]⟩]

def spec : ExperimentSpec where
  candidateId := "c1"
  fixtureId := "f1"
  procedure := ["install"]
  environment := []
  successSignals := [⟨"latency", "p95", "below 20"⟩]
  replayCommand := ["run"]

def observed (latency : Int) : ExperimentResult where
  status := .completed
  terminal := .inl rfl
  observations := [⟨"latency", .int latency, "runner"⟩]
  artifactHash := "sha256:logs"

/-- The experiment is run to its end, with a latency of 10. -/
def calls : List ExperimentCall :=
  [.plan spec none (given "1"), .start "mexp_1" (given "2"),
    .finish "mexp_1" (observed 10) none (given "3")]

theorem planless : Planless digit "org1" "m1" 1 funded where
  keyed := Table.keyed_nil
  mission := ⟨_, rfl, rfl⟩
  planless := rfl

end ExperimentSample

open ExperimentSample in
theorem experiment_budget_conserved_sample :
    ∃ mission remaining,
      (runExperiments .ascii digit "org1" "m1" funded calls).get "org1" "m1" = .ok mission ∧
      mission.remaining digit = .ok remaining ∧
      remaining + (experimentsOf "org1" "m1" (runExperiments .ascii digit "org1" "m1" funded calls)).length =
        1 ∧
      (0 ≤ (1 : Int) → 0 ≤ remaining) :=
  (experiment_budget_conserved planless calls).1

open ExperimentSample in
/-- An experiment that was completed with a latency of 10 is finished again with one of 20. -/
theorem other_result_returned : ¬ ∀ (rt : Runtime) (db : MissionDb) (initial : Int)
    (calls : List ExperimentCall) (e : AgentExperiment) (result : ExperimentResult),
    Planless digit "org1" "m1" initial db →
    e ∈ experimentsOf "org1" "m1" (runExperiments rt digit "org1" "m1" db calls) →
    e.status.Terminal →
    FinishesOnce rt digit "org1" "m1" (runExperiments rt digit "org1" "m1" db calls) e result none
      (given "4") := by
  intro hall
  have hfinal : ∃ e ∈ experimentsOf "org1" "m1" (runExperiments .ascii digit "org1" "m1" funded calls),
      e.status = (observed 20).status ∧
        ¬ Stores .ascii (runExperiments .ascii digit "org1" "m1" funded calls) e (observed 20) := by
    rw [Runtime.ascii_eq]
    decide +kernel
  obtain ⟨e, he, hstatus, hnot⟩ := hfinal
  have hterminal : e.status.Terminal := .inl hstatus
  have hafter := @budgeted_run .ascii _ _ _ _ _ planless calls
  obtain ⟨mission, -, hget, -⟩ := hafter.conserved
  have hfinish := @transact_finish_terminal .ascii digit _ _ _ _ _ hget hafter.keyed he
    hterminal (observed 20) none (given "4")
  rw [if_pos hstatus] at hfinish
  exact hnot ((hall .ascii funded 1 calls e (observed 20) planless he hterminal).1 ⟨_, hfinish⟩)

end Persistence
