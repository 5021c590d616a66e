-- SUMMARY: When each transaction of the qualification worker returns, and what it leaves then.
import SiraSeil.Persistence.QualificationMoves
import SiraSeil.SiraWorker.QualificationWorker

/-!
# The operations of the qualification worker

One lemma for each transaction of the worker and of its consumer, over those of the
repository.
-/

namespace SiraWorker

open Domain Persistence Sorting Raising

section Operations

variable {rt : Runtime} {organizationId missionId attemptId : String} {db db' : QualificationDb}
  {given : Given}

/-! ## Preparing -/

/-- The first attempt of a mission. -/
def firstAttempt (organizationId missionId : String) (given : Given) : QualificationAttempt where
  id := stableId "qattempt" missionId
  organizationId := organizationId
  missionId := missionId
  rootAttemptId := stableId "qattempt" missionId
  predecessorAttemptId := none
  replacementDepth := 0
  state := .queued
  generation := 0
  createdAt := given.now

theorem mem_attemptsOf {a : QualificationAttempt} :
    a ∈ attemptsOf organizationId missionId db ↔
      a ∈ db.attempts ∧ a.organizationId = organizationId ∧ a.missionId = missionId := by
  unfold attemptsOf
  rw [List.mem_filter, decide_eq_true_eq]

theorem queuedAttempt_eq_some {a : QualificationAttempt}
    (h : queuedAttempt organizationId missionId db = some a) :
    a ∈ db.attempts ∧ a.organizationId = organizationId ∧ a.missionId = missionId ∧
      a.state = .queued := by
  have hmem := List.mem_of_mem_head? h
  rw [mem_sortedBy, List.mem_filter, mem_attemptsOf, decide_eq_true_eq] at hmem
  obtain ⟨⟨ha, horg, hmission⟩, hstate⟩ := hmem
  exact ⟨ha, horg, hmission, hstate⟩

theorem chooseAttempt_eq_ok {a : QualificationAttempt} :
    chooseAttempt organizationId missionId given db = .ok (a, db') ↔
      (queuedAttempt organizationId missionId db = some a ∧ db' = db) ∨
        (attemptsOf organizationId missionId db = [] ∧
          (∀ b ∈ db.attempts, b.id ≠ stableId "qattempt" missionId) ∧
          a = firstAttempt organizationId missionId given ∧
          db' = { db with attempts := db.attempts ++ [a] }) := by
  unfold chooseAttempt
  cases hqueued : queuedAttempt organizationId missionId db with
  | some b =>
    have hsome : attemptsOf organizationId missionId db ≠ [] := by
      obtain ⟨hb, horg, hmission, -⟩ := queuedAttempt_eq_some hqueued
      exact List.ne_nil_of_mem (mem_attemptsOf.mpr ⟨hb, horg, hmission⟩)
    simp only [Except.ok.injEq, Prod.mk.injEq, Option.some.injEq, hsome, false_and, or_false,
      eq_comm (b := db')]
  | none =>
    dsimp only
    split
    · next hsome =>
      simp only [reduceCtorEq, false_and, false_or, false_iff, not_and]
      exact fun hnone => absurd hnone hsome
    · next hnone =>
      rw [check_bind_eq_ok, constrain_eq_ok, pure_eq_ok, List.any_eq_false]
      simp only [decide_eq_true_eq, Prod.mk.injEq, reduceCtorEq, false_and, false_or,
        not_not.mp hnone, true_and]
      constructor
      · rintro ⟨hfresh, rfl, rfl⟩
        exact ⟨hfresh, rfl, rfl⟩
      · rintro ⟨hfresh, rfl, rfl⟩
        exact ⟨hfresh, rfl, rfl⟩

/-- The rows that pin candidates. -/
def pinnedRows (organizationId missionId attemptId : String) (candidates : List VectorCandidate) :
    List QualificationMissionBundle :=
  candidates.map (fun c => ⟨organizationId, missionId, attemptId, c.productId, c.organizationId,
    c.bundleId, c.bundleDigest⟩)

theorem pinCandidates_eq_ok {candidates : List VectorCandidate} :
    pinCandidates organizationId missionId attemptId candidates db = .ok db' ↔
      (db.bundlesOf organizationId attemptId ≠ [] ∧ db' = db) ∨
        (db.bundlesOf organizationId attemptId = [] ∧ (candidates.map (·.productId)).Nodup ∧
          db' = { db with
            missionBundles :=
              db.missionBundles ++ pinnedRows organizationId missionId attemptId candidates }) := by
  unfold pinCandidates
  split
  · next hpinned =>
    simp only [Except.ok.injEq, hpinned, ne_eq, not_false_eq_true, true_and, false_and, or_false,
      eq_comm (b := db')]
  · next hpinned =>
    rw [check_bind_eq_ok, constrain_eq_ok, pure_eq_ok]
    simp only [not_not.mp hpinned, ne_eq, not_true_eq_false, false_and, false_or, true_and,
      Bool.not_eq_false', decide_eq_true_eq, eq_comm (b := db')]
    rfl

theorem announceAttempt_eq_ok (organizationId missionId attemptId : String)
    (db : QualificationDb) :
    ∃ events, announceAttempt organizationId missionId attemptId db =
      .ok { db with outbox := db.outbox ++ events } := by
  unfold announceAttempt
  dsimp only
  split
  · exact ⟨[], by rw [List.append_nil]⟩
  · next hfree =>
    refine ⟨_, addOutbox_eq_ok.mpr ⟨?_, rfl⟩⟩
    rw [Bool.not_eq_true, List.any_eq_false] at hfree
    simpa only [decide_eq_true_eq] using hfree

/-- The mission is running. -/
def runningMission (missionId : String) (db : QualificationDb) : QualificationDb :=
  { db with
    missions := Table.update (·.id) missionId (fun m => { m with state := .running }) db.missions }

theorem prepareAttempt_eq_ok {candidates : List VectorCandidate} {id : String} :
    prepareAttempt organizationId missionId candidates given db = .ok (id, db') ↔
      ∃ mission, db.mission? organizationId missionId = some mission ∧
        ∃ a chosen, chooseAttempt organizationId missionId given db = .ok (a, chosen) ∧
          ∃ pinned, pinCandidates organizationId missionId a.id candidates chosen = .ok pinned ∧
            announceAttempt organizationId mission.id a.id (runningMission mission.id pinned) =
              .ok db' ∧ id = a.id := by
  unfold prepareAttempt
  cases hmission : db.mission? organizationId missionId with
  | none => simp
  | some mission =>
    simp only [Option.some.injEq, exists_eq_left']
    constructor
    · intro h
      obtain ⟨⟨a, chosen⟩, hchoose, h⟩ := bind_eq_ok.mp h
      obtain ⟨pinned, hpin, h⟩ := bind_eq_ok.mp h
      obtain ⟨announced, hannounce, h⟩ := bind_eq_ok.mp h
      cases h
      exact ⟨a, chosen, hchoose, pinned, hpin, hannounce, rfl⟩
    · rintro ⟨a, chosen, hchoose, pinned, hpin, hannounce, rfl⟩
      refine bind_eq_ok.mpr ⟨(a, chosen), hchoose, ?_⟩
      refine bind_eq_ok.mpr ⟨pinned, hpin, ?_⟩
      exact bind_eq_ok.mpr ⟨db', hannounce, rfl⟩

/-! ## Claiming and finalizing -/

theorem claimAndSnapshot_eq_ok {leaseOwner : String} {lease : AttemptLease} :
    claimAndSnapshot organizationId rt leaseOwner attemptId given db = .ok (lease, db') ↔
      ∃ claimed, claimAttempt organizationId attemptId leaseOwner 300 given db =
          .ok (lease, claimed) ∧
        ∃ ds, snapshotAttempt rt organizationId lease given claimed = .ok (ds, db') := by
  unfold claimAndSnapshot
  constructor
  · intro h
    obtain ⟨⟨lease', claimed⟩, hclaim, h⟩ := bind_eq_ok.mp h
    obtain ⟨⟨ds, snapshotted⟩, hsnapshot, h⟩ := bind_eq_ok.mp h
    cases h
    exact ⟨claimed, hclaim, ds, hsnapshot⟩
  · rintro ⟨claimed, hclaim, ds, hsnapshot⟩
    refine bind_eq_ok.mpr ⟨(lease, claimed), hclaim, ?_⟩
    exact bind_eq_ok.mpr ⟨(ds, db'), hsnapshot, rfl⟩

/-- The mission awaits an approval. -/
def awaitingMission (missionId : String) (db : QualificationDb) : QualificationDb :=
  { db with
    missions :=
      Table.update (·.id) missionId (fun m => { m with state := .awaitingApproval }) db.missions }

theorem finalizeEvaluation_eq_ok {lease : AttemptLease} {decision : QualificationAgentDecision}
    {result : FinalizationResult} :
    finalizeEvaluation organizationId rt lease decision given db = .ok (result, db') ↔
      ∃ finalized, finalizeAttempt rt organizationId lease decision.recommendedProductId
          decision.payload decision.citedDependencyIds given db = .ok (result, finalized) ∧
        ((∃ attemptId replacementId, result = .stale attemptId replacementId ∧ db' = finalized) ∨
          ∃ attemptId decisionId, result = .completed attemptId decisionId ∧
            ∃ a, finalized.attempts.find? (fun a => a.id = lease.attemptId) = some a ∧
              ∃ mission, finalized.missions.find? (fun m => m.id = a.missionId) = some mission ∧
                db' = awaitingMission mission.id finalized) := by
  unfold finalizeEvaluation
  rw [bind_eq_ok]
  constructor
  · rintro ⟨⟨result', finalized⟩, hfinalize, h⟩
    cases result' with
    | stale attemptId replacementId =>
      cases h
      exact ⟨db', hfinalize, .inl ⟨attemptId, replacementId, rfl, rfl⟩⟩
    | completed attemptId decisionId =>
      dsimp only at h
      split at h
      · cases h
      · next a hattempt =>
        split at h
        · cases h
        · next mission hmission =>
          cases h
          exact ⟨finalized, hfinalize, .inr ⟨attemptId, decisionId, rfl, a, hattempt, mission,
            hmission, rfl⟩⟩
  · rintro ⟨finalized, hfinalize, hended⟩
    rcases hended with ⟨attemptId, replacementId, rfl, rfl⟩ |
      ⟨attemptId, decisionId, rfl, a, hattempt, mission, hmission, rfl⟩
    · exact ⟨(.stale attemptId replacementId, db'), hfinalize, rfl⟩
    · refine ⟨(.completed attemptId decisionId, finalized), hfinalize, ?_⟩
      dsimp only
      rw [hattempt]
      dsimp only
      rw [hmission]
      rfl

end Operations

end SiraWorker
