-- SUMMARY: Transactions add missions under new ids and change otherwise only their states, so that every run keeps one row for each mission.
import SiraSeil.SiraWorker.BundleActivation

/-!
# Mission states

A mission is created once, with what its attempts will depend on. What the transactions do
to it afterwards is to move its state.
-/

namespace SiraWorker

open Domain Persistence

/-- What a mission was created with. -/
def missionOrigin (m : QualificationMission) : QualificationMission :=
  { m with state := .draft }

/-- A mission is added under a new id, or states change. -/
inductive MissionChange (missions : List QualificationMission) :
    List QualificationMission → Prop
  | creates {m : QualificationMission} (hid : ∀ x ∈ missions, x.id ≠ m.id) :
      MissionChange missions (missions ++ [m])
  | sets {missions' : List QualificationMission}
      (horigin : missions'.map missionOrigin = missions.map missionOrigin) :
      MissionChange missions missions'

section Changes

variable {rt : Runtime} {organizationId : String} {db db' : QualificationDb} {given : Given}

theorem missionChange_of_eq {missions missions' : List QualificationMission}
    (h : missions' = missions) : MissionChange missions missions' :=
  .sets (congrArg (List.map missionOrigin) h)

theorem missionChange_update (missionId : String) (state : MissionState)
    (missions : List QualificationMission) :
    MissionChange missions (Table.update (·.id) missionId (fun m => { m with state }) missions) :=
  .sets (Table.map_update (fun _ => rfl))

theorem keyed_missionChange {missions missions' : List QualificationMission}
    (hkeyed : Table.Keyed (·.id) missions) (h : MissionChange missions missions') :
    Table.Keyed (·.id) missions' := by
  cases h with
  | creates hid => exact hkeyed.append hid
  | sets horigin =>
    have hids : missions'.map (·.id) = missions.map (·.id) := by
      have hview := congrArg (List.map (·.id)) horigin
      rw [List.map_map, List.map_map] at hview
      exact hview
    unfold Table.Keyed
    rw [hids]
    exact hkeyed

/-! ## Transactions -/

theorem missions_of_addOutbox {event : OutboxEvent} (h : addOutbox event db = .ok db') :
    db'.missions = db.missions := by
  obtain ⟨-, rfl⟩ := addOutbox_eq_ok.mp h
  rfl

theorem missions_of_addOutboxOnce (event : OutboxEvent) (db : QualificationDb) :
    (SiraApi.addOutboxOnce event db).missions = db.missions := by
  unfold SiraApi.addOutboxOnce
  split
  · rfl
  · rfl

theorem missions_of_replacementFor {a b : QualificationAttempt}
    (horg : a.organizationId = organizationId)
    (h : replacementFor organizationId a given db = .ok (b, db')) :
    db'.missions = db.missions := by
  rcases (replacementFor_eq_ok horg).mp h with ⟨-, rfl⟩ | ⟨-, -, -, -, rfl⟩
  · rfl
  · rfl

theorem missions_of_finalizeAttempt {lease : AttemptLease} {recommendedProductId : String}
    {payload : List (String × Value)} {citedDependencyIds : List String}
    {result : FinalizationResult}
    (h : finalizeAttempt rt organizationId lease recommendedProductId payload citedDependencyIds
      given db = .ok (result, db')) : db'.missions = db.missions := by
  obtain ⟨a, hfenced, hcases⟩ := finalizeAttempt_eq_ok.mp h
  obtain ⟨-, horg, -⟩ := mem_of_fencedAttempt hfenced
  rcases hcases with ⟨-, hstale⟩ | ⟨-, -, -, inputDigest, -, hcompleted⟩
  · obtain ⟨b, replaced, hreplace, houtbox, -⟩ := (finalizeStale_eq_ok horg).mp hstale
    rw [missions_of_addOutbox houtbox, missions_of_replacementFor horg hreplace]
    rfl
  · obtain ⟨decisionDigest, -, d, hd, decided, hdecide, houtbox, -⟩ :=
      (finalizeCompleted_eq_ok horg).mp hcompleted
    have hdorg : d.organizationId = organizationId := by
      rw [hd]
      exact horg
    obtain ⟨-, rfl⟩ := (addDecision_eq_ok hdorg).mp hdecide
    rw [missions_of_addOutbox houtbox]
    rfl

theorem missions_of_snapshotAttempt {lease : AttemptLease} {ds : List DependencySnapshot}
    (h : snapshotAttempt rt organizationId lease given db = .ok (ds, db')) :
    db'.missions = db.missions := by
  obtain ⟨a, digest, -, -, -, ⟨-, -, rfl⟩ | ⟨-, -, -, rfl⟩⟩ := snapshotAttempt_eq_ok.mp h
  · rfl
  · rfl

theorem missionChange_of_prepareAttempt {missionId id : String}
    {candidates : List VectorCandidate}
    (h : prepareAttempt organizationId missionId candidates given db = .ok (id, db')) :
    MissionChange db.missions db'.missions := by
  obtain ⟨mission, -, a, chosen, hchoose, pinned, hpin, hannounce, -⟩ :=
    prepareAttempt_eq_ok.mp h
  have hchosen : chosen.missions = db.missions := by
    rcases chooseAttempt_eq_ok.mp hchoose with ⟨-, rfl⟩ | ⟨-, -, -, rfl⟩
    · rfl
    · rfl
  have hpinned : pinned.missions = chosen.missions := by
    rcases pinCandidates_eq_ok.mp hpin with ⟨-, rfl⟩ | ⟨-, -, rfl⟩
    · rfl
    · rfl
  obtain ⟨events, hevents⟩ :=
    announceAttempt_eq_ok organizationId mission.id a.id (runningMission mission.id pinned)
  rw [hannounce] at hevents
  cases hevents
  rw [← hchosen, ← hpinned]
  exact missionChange_update mission.id .running pinned.missions

theorem missionChange_of_invalidate {productId : String} {result : BundleInvalidationResult}
    (h : invalidateDecisionsForActiveBundle organizationId productId given db =
      .ok (result, db')) : db'.missions.map missionOrigin = db.missions.map missionOrigin := by
  refine Raising.foldlM_related
    (R := fun (done done' : BundleInvalidationResult × QualificationDb) =>
      done'.2.missions.map missionOrigin = done.2.missions.map missionOrigin) ?_ ?_ ?_ h
  · exact fun _ => rfl
  · exact fun _ _ _ hfirst hlater => hlater.trans hfirst
  · rintro ⟨result, db⟩ row - ⟨result', db'⟩ hround
    rcases invalidateDecision_eq_ok.mp hround with ⟨-, -, rfl⟩ |
      ⟨-, ⟨-, rfl, -⟩ | ⟨active, replacement, -, hreopen, -⟩⟩
    · rfl
    · rfl
    · rcases reopenMission_eq_ok.mp hreopen with ⟨-, -, rfl⟩ | ⟨a, mission, hopen, b, replaced,
        hreplace, houtbox, -⟩
      · rfl
      · obtain ⟨-, horg, -⟩ := QualificationDb.attempt?_eq_some (mem_of_openMission hopen).1
        have hready : (readyMission mission.id replaced).missions.map missionOrigin =
            replaced.missions.map missionOrigin := Table.map_update (fun _ => rfl)
        have hmissions := missions_of_replacementFor horg hreplace
        rw [missions_of_addOutbox houtbox, hready, hmissions]
        rfl

theorem missionChange_of_qualify {t : Submitted} {o : Outcome}
    (h : qualify rt t db = .ok (o, db')) : MissionChange db.missions db'.missions := by
  obtain ⟨organizationId, transaction, given⟩ := t
  unfold qualify at h
  cases transaction
  case createMission =>
    obtain ⟨id, h, -⟩ := outcome_eq_ok.mp h
    obtain ⟨mission, event, rfl, -, -, hid, rfl⟩ := SiraApi.createMission_eq_ok h
    rw [missions_of_addOutboxOnce]
    exact .creates hid
  case storeBundle =>
    obtain ⟨_, h, -⟩ := outcome_eq_ok.mp h
    obtain ⟨bundles, members, rfl⟩ := tables_of_storeBundle h
    exact missionChange_of_eq rfl
  case activateBundle =>
    obtain ⟨_, h, -⟩ := outcome_eq_ok.mp h
    obtain ⟨bundles, pointers, events, rfl⟩ := tables_of_activateBundle h
    exact missionChange_of_eq rfl
  case prepareAttempt =>
    obtain ⟨_, h, -⟩ := outcome_eq_ok.mp h
    exact missionChange_of_prepareAttempt h
  case claimAttempt =>
    obtain ⟨_, h, -⟩ := outcome_eq_ok.mp h
    obtain ⟨-, a, -, -, -, -, -, rfl⟩ := claimAttempt_eq_ok.mp h
    exact missionChange_of_eq rfl
  case snapshotAttempt =>
    obtain ⟨_, h, -⟩ := outcome_eq_ok.mp h
    exact missionChange_of_eq (missions_of_snapshotAttempt h)
  case checkpointAttempt =>
    obtain ⟨_, h, -⟩ := outcome_eq_ok.mp h
    obtain ⟨a, -, -, -, -, rfl⟩ := checkpointAttempt_eq_ok.mp h
    exact missionChange_of_eq rfl
  case finalizeAttempt =>
    obtain ⟨_, h, -⟩ := outcome_eq_ok.mp h
    exact missionChange_of_eq (missions_of_finalizeAttempt h)
  case claimAndSnapshot =>
    obtain ⟨_, h, -⟩ := outcome_eq_ok.mp h
    obtain ⟨claimed, hclaim, ds, hsnapshot⟩ := claimAndSnapshot_eq_ok.mp h
    have hsnapshotted := missions_of_snapshotAttempt hsnapshot
    obtain ⟨-, a, -, -, -, -, -, rfl⟩ := claimAttempt_eq_ok.mp hclaim
    exact missionChange_of_eq hsnapshotted
  case finalizeEvaluation =>
    obtain ⟨_, h, -⟩ := outcome_eq_ok.mp h
    obtain ⟨finalized, hfinalize, ⟨-, -, -, rfl⟩ | ⟨-, -, -, a, -, mission, -, rfl⟩⟩ :=
      finalizeEvaluation_eq_ok.mp h
    · exact missionChange_of_eq (missions_of_finalizeAttempt hfinalize)
    · rw [← missions_of_finalizeAttempt hfinalize]
      exact missionChange_update mission.id .awaitingApproval finalized.missions
  case invalidate =>
    obtain ⟨_, h, -⟩ := outcome_eq_ok.mp h
    exact .sets (missionChange_of_invalidate h)
  case decideApproval =>
    obtain ⟨_, h, -⟩ := outcome_eq_ok.mp h
    obtain ⟨d, -, -, -, -, -, mission, -, judged, event, rfl, hjudged⟩ :=
      SiraApi.decideApproval_eq_ok h
    rw [missions_of_addOutboxOnce]
    rcases hjudged with ⟨-, rfl⟩ | ⟨-, happrove⟩
    · exact missionChange_update mission.id .completed db.missions
    · obtain ⟨-, bundle, -, e, -, -, -, rfl⟩ := SiraApi.approveDecision_eq_ok.mp happrove
      exact missionChange_of_eq rfl
  case respond =>
    obtain ⟨_, h, -⟩ := outcome_eq_ok.mp h
    obtain ⟨e, -, -, -, -, rfl⟩ := SiraApi.respond_eq_ok.mp h
    exact missionChange_of_eq (missions_of_addOutboxOnce _ _)
  case consent =>
    obtain ⟨_, h, -⟩ := outcome_eq_ok.mp h
    obtain ⟨e, -, -, hash, -, -, -, rfl⟩ := SiraApi.consent_eq_ok.mp h
    exact missionChange_of_eq (missions_of_addOutboxOnce _ _)
  case introduce =>
    obtain ⟨_, h, -⟩ := outcome_eq_ok.mp h
    obtain ⟨e, introduced, -, hintroduce, mission, -, rfl⟩ := SiraApi.introduce_eq_ok h
    have hsame : introduced.missions = db.missions := by
      obtain ⟨hash, -, e', -, -, -, -, -, ⟨-, -, -, -, rfl⟩ | ⟨buyer, seller, -, -, -, hadd⟩⟩ :=
        Persistence.introduce_eq_ok hintroduce
      · rfl
      · have hadded := missions_of_addOutbox hadd
        exact hadded
    rw [← hsame]
    exact missionChange_update mission.id .completed introduced.missions
  case recordReceipt =>
    obtain ⟨_, h, -⟩ := outcome_eq_ok.mp h
    obtain ⟨receipts, rfl⟩ := recordReceipt_eq_ok h
    exact missionChange_of_eq rfl

end Changes

theorem keyed_missions (rt : Runtime) (ts : List Submitted) :
    Table.Keyed (·.id) (tablesAfter rt ts).missions :=
  Transactions.run_induction
    (I := fun (db : QualificationDb) => Table.Keyed (·.id) db.missions)
    (fun _ _ _ _ hkeyed h => keyed_missionChange hkeyed (missionChange_of_qualify h))
    Table.keyed_nil ts

end SiraWorker
