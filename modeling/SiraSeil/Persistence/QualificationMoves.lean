-- SUMMARY: The moves that each operation of the qualification repository makes on the kernel, so that the kernel is sound after every one of them.
import SiraSeil.Persistence.QualificationKernel

/-!
# Operations as moves

Each operation of the repository that returns is a sequence of moves of the kernel. What
it does to other tables is invisible there.
-/

namespace Persistence

open Domain

section Moves

variable {rt : Runtime} {organizationId : String} {db db' : QualificationDb} {given : Given}

theorem moves_of_eq (h : db'.kernel = db.kernel) : Kernel.Moves rt db.kernel db'.kernel := by
  rw [h]

theorem kernel_of_addOutbox {event : OutboxEvent} (h : addOutbox event db = .ok db') :
    db'.kernel = db.kernel := by
  obtain ⟨-, rfl⟩ := addOutbox_eq_ok.mp h
  rfl

/-! ## Leases, checkpoints and snapshots -/

variable {lease : AttemptLease} {a : QualificationAttempt} {payload : List (String × Value)}
  {result : FinalizationResult} {productId : String}

theorem moves_of_claimAttempt {attemptId leaseOwner : String} {leaseSeconds : Int}
    (h : claimAttempt organizationId attemptId leaseOwner leaseSeconds given db =
      .ok (lease, db')) : Kernel.Moves rt db.kernel db'.kernel := by
  obtain ⟨-, a, hfind, hstate, -, hfree, -, rfl⟩ := claimAttempt_eq_ok.mp h
  obtain ⟨ha, -, -⟩ := QualificationDb.attempt?_eq_some hfind
  refine .single (.claims (k := db.kernel) ha hstate (fun c hc hheld => ?_))
  exact hfree c hc ⟨hheld.1.1, hheld.1.2, hheld.2⟩

theorem mem_of_fencedAttempt {allowedStates : List AttemptState} {now : Int}
    (h : fencedAttempt organizationId lease allowedStates now db = .ok a) :
    a ∈ db.attempts ∧ a.organizationId = organizationId ∧ a.id = lease.attemptId ∧
      a.state ∈ allowedStates := by
  obtain ⟨hfind, hfenced⟩ := fencedAttempt_eq_ok.mp h
  obtain ⟨ha, horg, hid⟩ := QualificationDb.attempt?_eq_some hfind
  exact ⟨ha, horg, hid, (QualificationAttempt.fencedBy_iff.mp hfenced).2.2.2⟩

theorem moves_of_checkpointAttempt {sequence : Nat} {kind : String} {checkpoint : AttemptCheckpoint}
    (h : checkpointAttempt organizationId lease sequence kind payload given db =
      .ok (checkpoint, db')) : Kernel.Moves rt db.kernel db'.kernel := by
  obtain ⟨a, hfenced, -, -, rfl, rfl⟩ := checkpointAttempt_eq_ok.mp h
  obtain ⟨ha, horg, -, hstate⟩ := mem_of_fencedAttempt hfenced
  exact .single (.checkpoints (k := db.kernel) ha hstate ⟨horg.symm, rfl⟩ rfl)

theorem moves_of_snapshotAttempt {ds : List DependencySnapshot}
    (h : snapshotAttempt rt organizationId lease given db = .ok (ds, db')) :
    Kernel.Moves rt db.kernel db'.kernel := by
  obtain ⟨a, digest, hfenced, hcollect, hdigest, ⟨-, -, rfl⟩ | ⟨hnone, -, -, rfl⟩⟩ :=
    snapshotAttempt_eq_ok.mp h
  · exact .refl
  · obtain ⟨ha, horg, -, hstate⟩ := mem_of_fencedAttempt hfenced
    subst horg
    -- The checkpoint is written, and then the snapshot that it holds.
    have hcheckpoint : Kernel.Move rt db.kernel { db.kernel with
        checkpoints := db.kernel.checkpoints ++
          [snapshotCheckpoint a.organizationId a digest ds.length] } :=
      .checkpoints (k := db.kernel) ha hstate ⟨rfl, rfl⟩ rfl
    refine Relation.ReflTransGen.tail (.single hcheckpoint) (.snapshots (k := { db.kernel with
      checkpoints := db.kernel.checkpoints ++
        [snapshotCheckpoint a.organizationId a digest ds.length] }) ha hstate hnone
      (collectDependencies_ne_nil hcollect) hdigest (fun hfree => ?_))
    exact hfree _ (List.mem_append_right _ (List.mem_singleton_self _)) ⟨⟨rfl, rfl⟩, rfl⟩

/-! ## Replacements and finalization -/

theorem moves_of_replacementFor {b : QualificationAttempt}
    (horg : a.organizationId = organizationId) (ha : ∃ p ∈ db.attempts, SameAttempt a p)
    (h : replacementFor organizationId a given db = .ok (b, db')) :
    Kernel.Moves rt db.kernel db'.kernel := by
  rcases (replacementFor_eq_ok horg).mp h with ⟨-, rfl⟩ | ⟨hnone, hdepth, hfresh, rfl, rfl⟩
  · exact .refl
  · obtain ⟨p, hp, hsame⟩ := ha
    refine .single (.begins (k := db.kernel) hfresh rfl rfl rfl rfl (.inr ⟨p, hp, ?_⟩)
      (fun c hc hcorg _ hpredecessor => ?_))
    · refine ⟨hsame.organization, hsame.mission, ?_, ?_, ?_⟩
      · exact congrArg some hsame.id.symm
      · exact congrArg (· + 1) hsame.depth.symm
      · rw [hsame.depth]
        exact hdepth
    · have hother := List.find?_eq_none.mp hnone c hc
      simp only [decide_eq_true_eq] at hother
      exact hother ⟨hcorg, hpredecessor⟩

theorem moves_of_finalizeStale {changed : List String} (hsound : db.kernel.Sound rt)
    (ha : a ∈ db.attempts) (horg : a.organizationId = organizationId)
    (hstate : a.state = .snapshotComplete)
    (h : finalizeStale organizationId a changed given db = .ok (result, db')) :
    Kernel.Moves rt db.kernel db'.kernel := by
  obtain ⟨b, replaced, hreplace, houtbox, -⟩ := (finalizeStale_eq_ok horg).mp h
  have hmarked : Kernel.Moves rt db.kernel (db.updateAttempt a.id (·.staled changed)).kernel :=
    .single (.stales (k := db.kernel) ha hstate)
  obtain ⟨p, hp, hsame, -⟩ := Kernel.exists_mem_updateAttempt (k := db.kernel)
    (f := (·.staled changed)) hsound.attempts ha ⟨rfl, rfl, rfl, rfl, rfl, rfl⟩ ha
  have hreplaced : Kernel.Moves rt _ replaced.kernel :=
    moves_of_replacementFor horg ⟨p, hp, hsame⟩ hreplace
  rw [kernel_of_addOutbox houtbox]
  exact hmarked.trans hreplaced

theorem moves_of_finalizeCompleted {inputDigest recommendedProductId : String}
    {citedDependencyIds : List String} (hsound : db.kernel.Sound rt) (ha : a ∈ db.attempts)
    (horg : a.organizationId = organizationId) (hstate : a.state = .snapshotComplete)
    (hdigest : a.inputDigest = some inputDigest)
    (h : finalizeCompleted rt organizationId a (db.dependenciesOf organizationId a.id) inputDigest
      recommendedProductId payload citedDependencyIds given db = .ok (result, db')) :
    Kernel.Moves rt db.kernel db'.kernel := by
  subst horg
  obtain ⟨decisionDigest, -, d, hd, decided, hdecide, houtbox, -⟩ :=
    (finalizeCompleted_eq_ok rfl).mp h
  have hdorg : d.organizationId = a.organizationId := by rw [hd]; rfl
  obtain ⟨hfree, rfl⟩ := (addDecision_eq_ok hdorg).mp hdecide
  -- The attempt is completed first, and then its decision is recorded.
  have hcompleted : Kernel.Moves rt db.kernel (db.kernel.updateAttempt a.id (·.concluded)) :=
    .single (.completes (k := db.kernel) ha hstate)
  have hconcluded : a.concluded ∈ (db.kernel.updateAttempt a.id (·.concluded)).attempts :=
    (Kernel.mem_updateAttempt (k := db.kernel) hsound.attempts ha).mpr (.inl rfl)
  have hdecided : Kernel.Move rt (db.kernel.updateAttempt a.id (·.concluded))
      { db.kernel.updateAttempt a.id (·.concluded) with
        decisions := db.decisions ++ [d]
        decisionDependencies := db.decisionDependencies ++ decisionRows d.organizationId d.id
          citedDependencyIds (db.dependenciesOf a.organizationId a.id) } := by
    refine .decides (k := db.kernel.updateAttempt a.id (·.concluded)) (a := a.concluded)
      hconcluded rfl ?_ ?_ ?_ hfree.id hfree.attempt hfree.current
    · rw [hd]
      exact ⟨rfl, rfl⟩
    · rw [hd]
      rfl
    · rw [hd]
      exact hdigest
  rw [hdorg] at hdecided
  rw [kernel_of_addOutbox houtbox]
  exact hcompleted.tail hdecided

theorem moves_of_finalizeAttempt {recommendedProductId : String} {citedDependencyIds : List String}
    (hsound : db.kernel.Sound rt)
    (h : finalizeAttempt rt organizationId lease recommendedProductId payload citedDependencyIds
      given db = .ok (result, db')) : Kernel.Moves rt db.kernel db'.kernel := by
  obtain ⟨a, hfenced, hcases⟩ := finalizeAttempt_eq_ok.mp h
  obtain ⟨ha, horg, -, hstate⟩ := mem_of_fencedAttempt hfenced
  have hstate : a.state = .snapshotComplete := by simpa using hstate
  rcases hcases with ⟨-, hstale⟩ | ⟨-, -, -, inputDigest, hdigest, hcompleted⟩
  · exact moves_of_finalizeStale hsound ha horg hstate hstale
  · exact moves_of_finalizeCompleted hsound ha horg hstate hdigest hcompleted

/-! ## Invalidation -/

theorem moves_of_retireDecision (decision : QualificationDecision) :
    Kernel.Moves rt db.kernel (retireDecision organizationId decision db).kernel :=
  .single (.marks (k := db.kernel) (fun _ => rfl) nofun)

theorem mem_of_openMission {decision : QualificationDecision} {mission : QualificationMission}
    (h : openMission organizationId decision db = some (a, mission)) :
    db.attempt? organizationId decision.attemptId = some a ∧
      db.mission? organizationId decision.missionId = some mission ∧
      mission.state ≠ .failed ∧ mission.state ≠ .cancelled := by
  unfold openMission at h
  split at h
  · next hattempt hmission =>
    split at h
    · cases h
    · next hopen =>
      cases h
      exact ⟨hattempt, hmission, fun hfailed => hopen (.inl hfailed),
        fun hcancelled => hopen (.inr hcancelled)⟩
  · cases h

theorem moves_of_reopenMission {decision : QualificationDecision} {active : ActiveProductBundle}
    {replacement : Option String}
    (h : reopenMission organizationId decision productId active given db =
      .ok (replacement, db')) : Kernel.Moves rt db.kernel db'.kernel := by
  rcases reopenMission_eq_ok.mp h with ⟨-, -, rfl⟩ | ⟨a, mission, hopen, b, replaced, hreplace,
    houtbox, -⟩
  · exact .refl
  · obtain ⟨ha, horg, -⟩ := QualificationDb.attempt?_eq_some (mem_of_openMission hopen).1
    have hmoves : Kernel.Moves rt db.kernel replaced.kernel :=
      moves_of_replacementFor horg ⟨a, ha, SameAttempt.refl a⟩ hreplace
    rw [kernel_of_addOutbox houtbox]
    exact hmoves

theorem moves_of_invalidateDecision {row : QualificationDecision × DecisionDependency}
    {result result' : BundleInvalidationResult}
    (h : invalidateDecision organizationId productId given row (result, db) = .ok (result', db')) :
    Kernel.Moves rt db.kernel db'.kernel := by
  rcases invalidateDecision_eq_ok.mp h with ⟨-, -, rfl⟩ |
    ⟨-, ⟨-, rfl, -⟩ | ⟨active, replacement, -, hreopen, -⟩⟩
  · exact .refl
  · exact moves_of_retireDecision row.1
  · exact (moves_of_retireDecision row.1).trans (moves_of_reopenMission hreopen)

theorem moves_of_invalidate {result : BundleInvalidationResult}
    (h : invalidateDecisionsForActiveBundle organizationId productId given db =
      .ok (result, db')) : Kernel.Moves rt db.kernel db'.kernel :=
  Raising.foldlM_related (R := fun done done' => Kernel.Moves rt done.2.kernel done'.2.kernel)
    (fun _ => .refl) (fun _ _ _ => .trans)
    (fun _ _ _ _ hround => moves_of_invalidateDecision hround) h

end Moves

end Persistence
