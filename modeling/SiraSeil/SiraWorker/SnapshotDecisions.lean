-- SUMMARY: A finalization records exactly the snapshot of its attempt while it is still true, or it replaces the attempt, or it changes nothing.
import SiraSeil.SiraWorker.GenerationFencing

/-!
# Decisions over snapshots

A seller may activate another bundle at any time between the snapshot of an attempt and its
finalization. The finalization looks at the pointers again, and what it finds decides whether
it records a decision over the whole snapshot or leaves a replacement.
-/

namespace SiraWorker

open Domain Persistence

/-- The attempt has a decision, which records its snapshot while all of its bundles are active. -/
structure RecordsSnapshot (rt : Runtime) (organizationId attemptId decisionId : String)
    (recommendedProductId : String) (citedDependencyIds : List String) (db : QualificationDb) :
    Prop where
  active : ∀ x ∈ db.dependenciesOf organizationId attemptId,
    x.snapshot.kind = .productBundle → x.snapshot.IsActive db
  decision : ∃ d ∈ db.decisions, d.id = decisionId ∧ d.organizationId = organizationId ∧
    d.attemptId = attemptId ∧ d.recommendedProductId = recommendedProductId ∧
    (db.kernel.recordedBy d).map (·.snapshot) =
      (db.dependenciesOf organizationId attemptId).map (·.snapshot) ∧
    snapshotDigest rt ((db.dependenciesOf organizationId attemptId).map (·.snapshot)) =
      .ok d.inputDigest
  recommends : Recommends (db.dependenciesOf organizationId attemptId) recommendedProductId
  cites : Cites (db.dependenciesOf organizationId attemptId) citedDependencyIds

/-- The attempt is stale, because a bundle of its snapshot is not active any more. It has no
    decision and one replacement. -/
structure IsReplaced (organizationId attemptId replacementId : String) (db : QualificationDb) :
    Prop where
  changed : ∃ x ∈ db.dependenciesOf organizationId attemptId,
    x.snapshot.kind = .productBundle ∧ ¬ x.snapshot.IsActive db
  undecided : ∀ d ∈ db.decisions, d.attemptId ≠ attemptId
  replaced : ∃ a ∈ db.attempts, a.id = attemptId ∧ a.state = .stale ∧
    ∃ b ∈ db.attempts, b.id = replacementId ∧ b.predecessorAttemptId = some attemptId ∧
      b.replacementDepth = a.replacementDepth + 1 ∧
      ∀ c ∈ db.attempts, c.predecessorAttemptId = some attemptId → c = b

section Decisions

variable {rt : Runtime} {organizationId recommendedProductId : String} {db db' : QualificationDb}
  {given : Given} {a : QualificationAttempt} {payload : List (String × Value)}
  {citedDependencyIds : List String}

theorem recordsSnapshot_of_finalizeCompleted {inputDigest attemptId decisionId : String}
    (hsound : db'.kernel.Sound rt) (horg : a.organizationId = organizationId)
    (hactive : ∀ x ∈ db.dependenciesOf organizationId a.id,
      x.snapshot.kind = .productBundle → x.snapshot.IsActive db)
    (hcites : Cites (db.dependenciesOf organizationId a.id) citedDependencyIds)
    (hrecommends : Recommends (db.dependenciesOf organizationId a.id) recommendedProductId)
    (h : finalizeCompleted rt organizationId a (db.dependenciesOf organizationId a.id) inputDigest
      recommendedProductId payload citedDependencyIds given db =
      .ok (.completed attemptId decisionId, db')) :
    attemptId = a.id ∧ RecordsSnapshot rt organizationId attemptId decisionId recommendedProductId
      citedDependencyIds db' := by
  obtain ⟨decisionDigest, -, d, hd, decided, hdecide, houtbox, hresult⟩ :=
    (finalizeCompleted_eq_ok horg).mp h
  have hdorg : d.organizationId = organizationId := by
    rw [hd]
    exact horg
  obtain ⟨rfl, rfl⟩ := FinalizationResult.completed.inj hresult
  obtain ⟨hmem, hdependencies, hpointers⟩ : d ∈ db'.decisions ∧
      db'.dependencies = db.dependencies ∧ db'.activeBundles = db.activeBundles := by
    obtain ⟨-, rfl⟩ := (addDecision_eq_ok hdorg).mp hdecide
    obtain ⟨-, rfl⟩ := addOutbox_eq_ok.mp houtbox
    exact ⟨List.mem_append_right _ (List.mem_singleton_self d), rfl, rfl⟩
  have hrows : db'.dependenciesOf organizationId a.id = db.dependenciesOf organizationId a.id := by
    unfold QualificationDb.dependenciesOf
    rw [hdependencies]
  have hdattempt : d.attemptId = a.id := by
    rw [hd]
    rfl
  -- What the kernel says of a decision is what was recorded.
  obtain ⟨b, hb, hof, -, -, hdigest, hrecorded⟩ := hsound.decided d hmem
  have hsame : db'.kernel.dependenciesOf b = db'.dependenciesOf organizationId a.id := by
    unfold Kernel.dependenciesOf QualificationDb.dependenciesOf
    rw [← hof.1, ← hof.2, hdorg, hdattempt]
    rfl
  rw [hsame] at hrecorded
  refine ⟨rfl, ?_, ⟨d, hmem, rfl, hdorg, hdattempt, by rw [hd]; rfl, hrecorded, ?_⟩, ?_, ?_⟩
  · rw [hrows]
    unfold DependencySnapshot.IsActive at hactive ⊢
    rw [hpointers]
    exact hactive
  · rcases hsound.snapshotted b hb with ⟨-, hnone, -⟩ | ⟨-, -, ⟨digest, hcomputed, hstored⟩, -⟩
    · rw [hnone] at hdigest
      cases hdigest
    · rw [hsame] at hcomputed
      rw [hstored] at hdigest
      rw [← Option.some.inj hdigest]
      exact hcomputed
  · rw [hrows]
    exact hrecommends
  · rw [hrows]
    exact hcites

theorem isReplaced_of_finalizeStale {attemptId replacementId : String}
    (hsound : db'.kernel.Sound rt) (ha : a ∈ db.attempts) (horg : a.organizationId = organizationId)
    (hchanged : ∃ x ∈ db.dependenciesOf organizationId a.id,
      x.snapshot.kind = .productBundle ∧ ¬ x.snapshot.IsActive db) {changed : List String}
    (h : finalizeStale organizationId a changed given db =
      .ok (.stale attemptId replacementId, db')) :
    attemptId = a.id ∧ IsReplaced organizationId attemptId replacementId db' := by
  obtain ⟨b, replaced, hreplace, houtbox, hresult⟩ := (finalizeStale_eq_ok horg).mp h
  obtain ⟨rfl, rfl⟩ := FinalizationResult.stale.inj hresult
  have hmarked : a.staled changed ∈ (db.updateAttempt a.id (·.staled changed)).attempts :=
    Table.mem_update.mpr (.inl ⟨a, ha, rfl, rfl⟩)
  -- The replacement was there or is added, and nothing else changes.
  obtain ⟨hstale, hb, hpredecessor, hdependencies, hpointers⟩ :
      a.staled changed ∈ replaced.attempts ∧ b ∈ replaced.attempts ∧
        b.predecessorAttemptId = some a.id ∧ replaced.dependencies = db.dependencies ∧
        replaced.activeBundles = db.activeBundles := by
    rcases (replacementFor_eq_ok horg).mp hreplace with ⟨hsuccessor, rfl⟩ | ⟨-, -, -, rfl, rfl⟩
    · have hkeys := List.find?_some hsuccessor
      simp only [decide_eq_true_eq] at hkeys
      exact ⟨hmarked, List.mem_of_find?_eq_some hsuccessor, hkeys.2, rfl, rfl⟩
    · exact ⟨List.mem_append_left _ hmarked,
        List.mem_append_right _ (List.mem_singleton_self _), rfl, rfl, rfl⟩
  obtain ⟨-, rfl⟩ := addOutbox_eq_ok.mp houtbox
  refine ⟨rfl, ?_, ?_, ?_⟩
  · unfold QualificationDb.dependenciesOf DependencySnapshot.IsActive at hchanged ⊢
    rw [hdependencies, hpointers]
    exact hchanged
  · intro d hd hof
    obtain ⟨c, hc, hcof, -, hcompleted, -⟩ := hsound.decided d hd
    obtain rfl := hsound.attempts.eq hc hstale (hcof.2.symm.trans hof)
    cases hcompleted
  · refine ⟨_, hstale, rfl, rfl, b, hb, rfl, hpredecessor, ?_, ?_⟩
    · rcases hsound.descends b hb with ⟨hnone, -⟩ | ⟨p, hp, -, -, hparent, hdepth, -⟩
      · rw [hnone] at hpredecessor
        cases hpredecessor
      · have hpid : p.id = a.id := by
          rw [hparent] at hpredecessor
          exact Option.some.inj hpredecessor
        obtain rfl := hsound.attempts.eq hp hstale hpid
        exact hdepth
    · intro c hc hparent
      exact eq_of_predecessor rt hsound hc hb (by rw [hparent]; rfl)
        (hparent.trans hpredecessor.symm)

end Decisions

/-- After any transactions, a finalization either records the snapshot of its attempt as it is
    still true, or replaces the attempt, or leaves everything as it was. -/
theorem finalization_records_snapshot (rt : Runtime) (ts : List Submitted)
    (organizationId : String) (lease : AttemptLease) (recommendedProductId : String)
    (payload : List (String × Value)) (citedDependencyIds : List String) (given : Given) :
    (∀ attemptId decisionId next,
      finalizeAttempt rt organizationId lease recommendedProductId payload citedDependencyIds given
          (tablesAfter rt ts) = .ok (.completed attemptId decisionId, next) →
        attemptId = lease.attemptId ∧ RecordsSnapshot rt organizationId attemptId decisionId
          recommendedProductId citedDependencyIds next) ∧
    (∀ attemptId replacementId next,
      finalizeAttempt rt organizationId lease recommendedProductId payload citedDependencyIds given
          (tablesAfter rt ts) = .ok (.stale attemptId replacementId, next) →
        attemptId = lease.attemptId ∧ IsReplaced organizationId attemptId replacementId next) ∧
    ∀ e,
      finalizeAttempt rt organizationId lease recommendedProductId payload citedDependencyIds given
          (tablesAfter rt ts) = .error e →
        tablesAfter rt (ts ++ [⟨organizationId, .finalizeAttempt lease recommendedProductId payload
          citedDependencyIds, given⟩]) = tablesAfter rt ts := by
  have hsound := sound_tablesAfter rt ts
  refine ⟨?_, ?_, ?_⟩
  · intro attemptId decisionId next h
    have hnext := (hsound.moves (moves_of_finalizeAttempt hsound h)).1
    obtain ⟨a, hfenced, ⟨-, hstale⟩ | ⟨hactive, hcites, hrecommends, inputDigest, -, hcompleted⟩⟩ :=
      finalizeAttempt_eq_ok.mp h
    · obtain ⟨-, horg, -⟩ := mem_of_fencedAttempt hfenced
      obtain ⟨b, replaced, -, -, hresult⟩ := (finalizeStale_eq_ok horg).mp hstale
      cases hresult
    · obtain ⟨-, horg, hid, -⟩ := mem_of_fencedAttempt hfenced
      obtain ⟨rfl, hrecords⟩ := recordsSnapshot_of_finalizeCompleted hnext horg
        (changedProductBundles_eq_nil.mp hactive) hcites hrecommends hcompleted
      exact ⟨hid, hrecords⟩
  · intro attemptId replacementId next h
    have hnext := (hsound.moves (moves_of_finalizeAttempt hsound h)).1
    obtain ⟨a, hfenced, ⟨hchanged, hstale⟩ | ⟨-, -, -, inputDigest, -, hcompleted⟩⟩ :=
      finalizeAttempt_eq_ok.mp h
    · obtain ⟨ha, horg, hid, -⟩ := mem_of_fencedAttempt hfenced
      obtain ⟨productId, hmem⟩ := List.exists_mem_of_ne_nil _ hchanged
      obtain ⟨x, hx, hkind, hactive, -⟩ := mem_changedProductBundles.mp hmem
      obtain ⟨rfl, hreplaced⟩ :=
        isReplaced_of_finalizeStale hnext ha horg ⟨x, hx, hkind, hactive⟩ hstale
      exact ⟨hid, hreplaced⟩
    · obtain ⟨-, horg, -⟩ := mem_of_fencedAttempt hfenced
      obtain ⟨decisionDigest, -, d, -, decided, -, -, hresult⟩ :=
        (finalizeCompleted_eq_ok horg).mp hcompleted
      cases hresult
  · intro e h
    refine tablesAfter_of_error (e := e) rt ?_
    show outcome .finalized (finalizeAttempt rt organizationId lease recommendedProductId payload
      citedDependencyIds given (tablesAfter rt ts)) = .error e
    rw [h]
    rfl

end SiraWorker
