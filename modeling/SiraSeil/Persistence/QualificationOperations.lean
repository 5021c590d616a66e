-- SUMMARY: When each operation of the qualification repository returns, and what it returns and leaves then.
import SiraSeil.Persistence.QualificationRepository

/-!
# The operations of the qualification repository

One lemma for each operation, which says when it returns and what it leaves. The proofs
about whole runs use these and never unfold an operation.
-/

namespace Persistence

open Domain Raising

section Operations

variable {rt : Runtime} {organizationId : String} {db db' : QualificationDb} {given : Given}

/-! ## Lookups -/

variable {a : QualificationAttempt} {lease : AttemptLease} {now : Int}
  {payload : List (String × Value)} {ds : List DependencySnapshot} {inputDigest productId : String}
  {citedDependencyIds : List String} {result : FinalizationResult}

theorem QualificationDb.attempt?_eq_some {attemptId : String}
    (h : db.attempt? organizationId attemptId = some a) :
    a ∈ db.attempts ∧ a.organizationId = organizationId ∧ a.id = attemptId := by
  have hkeys := List.find?_some h
  simp only [decide_eq_true_eq] at hkeys
  exact ⟨List.mem_of_find?_eq_some h, hkeys⟩

theorem QualificationDb.attempt?_of_mem (hkeyed : Table.Keyed (·.id) db.attempts)
    (ha : a ∈ db.attempts) : db.attempt? a.organizationId a.id = some a := by
  apply hkeyed.find?_eq ha
  · simp
  · intro b _ hb
    simp only [decide_eq_true_eq] at hb
    exact hb.2

theorem QualificationDb.mission?_eq_some {missionId : String} {m : QualificationMission}
    (h : db.mission? organizationId missionId = some m) :
    m ∈ db.missions ∧ m.organizationId = organizationId ∧ m.id = missionId := by
  have hkeys := List.find?_some h
  simp only [decide_eq_true_eq] at hkeys
  exact ⟨List.mem_of_find?_eq_some h, hkeys⟩

theorem addOutbox_eq_ok {event : OutboxEvent} :
    addOutbox event db = .ok db' ↔
      (∀ e ∈ db.outbox, ¬ (e.organizationId = event.organizationId ∧
        e.eventKey = event.eventKey)) ∧ db' = { db with outbox := db.outbox ++ [event] } := by
  unfold addOutbox
  rw [check_bind_eq_ok, constrain_eq_ok, pure_eq_ok, List.any_eq_false]
  simp only [decide_eq_true_eq, eq_comm (a := db')]

/-! ## Leases -/

/-- No checkpoint holds the attempt at its generation. -/
def QualificationDb.Unheld (db : QualificationDb) (a : QualificationAttempt) : Prop :=
  ∀ k ∈ db.checkpoints, ¬ (k.organizationId = a.organizationId ∧ k.attemptId = a.id ∧
    k.generation = a.generation)

/-- The row of a claimed attempt. -/
def QualificationAttempt.claimed (a : QualificationAttempt) (leaseOwner : String)
    (leaseExpiresAt : Int) : QualificationAttempt :=
  { a with
    state := .running
    leaseOwner := some leaseOwner
    leaseExpiresAt := some leaseExpiresAt
    generation := a.generation + 1 }

theorem claimAttempt_eq_ok {attemptId leaseOwner : String} {leaseSeconds : Int} :
    claimAttempt organizationId attemptId leaseOwner leaseSeconds given db = .ok (lease, db') ↔
      (1 ≤ leaseSeconds ∧ leaseSeconds ≤ 600) ∧
      ∃ a, db.attempt? organizationId attemptId = some a ∧ a.state.claimable = true ∧
        a.free leaseOwner given.now = true ∧ db.Unheld a ∧
        lease = ⟨attemptId, a.generation + 1, leaseOwner, given.now + 1000000 * leaseSeconds⟩ ∧
        db' = db.updateAttempt a.id
          (·.claimed leaseOwner (given.now + 1000000 * leaseSeconds)) := by
  unfold claimAttempt
  split
  · next hseconds =>
    refine ⟨nofun, ?_⟩
    rintro ⟨hbound, -⟩
    omega
  · next hseconds =>
    have hbound : 1 ≤ leaseSeconds ∧ leaseSeconds ≤ 600 := by omega
    simp only [hbound, and_self, true_and]
    cases hfind : db.attempt? organizationId attemptId with
    | none => simp
    | some a =>
      obtain ⟨-, horg, -⟩ := QualificationDb.attempt?_eq_some hfind
      simp only [Option.some.injEq, exists_eq_left']
      split
      · next hclaim =>
        rw [check_bind_eq_ok, constrain_eq_ok, pure_eq_ok, Prod.mk.injEq,
          List.any_eq_false, ← horg]
        simp only [decide_eq_true_eq, hclaim.1, hclaim.2, true_and, eq_comm (b := lease),
          eq_comm (b := db')]
        rfl
      · next hclaim =>
        refine ⟨nofun, ?_⟩
        rintro ⟨hstate, hfree, -⟩
        exact absurd ⟨hstate, hfree⟩ hclaim

theorem fencedAttempt_eq_ok {allowedStates : List AttemptState} :
    fencedAttempt organizationId lease allowedStates now db = .ok a ↔
      db.attempt? organizationId lease.attemptId = some a ∧
        a.fencedBy lease allowedStates now = true := by
  unfold fencedAttempt
  cases hfind : db.attempt? organizationId lease.attemptId with
  | none => simp
  | some b =>
    dsimp only
    split
    · next hfenced =>
      constructor
      · intro h
        cases h
        exact ⟨rfl, hfenced⟩
      · rintro ⟨hab, -⟩
        cases hab
        rfl
    · next hfenced =>
      refine ⟨nofun, ?_⟩
      rintro ⟨hab, h⟩
      cases hab
      exact absurd h hfenced

theorem QualificationAttempt.fencedBy_iff {allowedStates : List AttemptState} :
    a.fencedBy lease allowedStates now = true ↔
      a.generation = lease.generation ∧ a.leaseOwner = some lease.leaseOwner ∧
        (∃ expiresAt, a.leaseExpiresAt = some expiresAt ∧ now < expiresAt) ∧
        a.state ∈ allowedStates := by
  unfold fencedBy
  simp only [Bool.and_eq_true, decide_eq_true_eq, Option.any_eq_true, List.contains_iff_mem,
    and_assoc]

/-! ## Checkpoints and snapshots -/

/-- The attempt has no checkpoint of a sequence number. -/
def QualificationDb.SequenceFree (db : QualificationDb) (a : QualificationAttempt)
    (sequence : Nat) : Prop :=
  ∀ k ∈ db.checkpoints, ¬ (k.organizationId = a.organizationId ∧ k.attemptId = a.id ∧
    k.sequence = sequence)

theorem checkpointAttempt_eq_ok {sequence : Nat} {kind : String} {checkpoint : AttemptCheckpoint} :
    checkpointAttempt organizationId lease sequence kind payload given db =
        .ok (checkpoint, db') ↔
      ∃ a, fencedAttempt organizationId lease [.running, .snapshotComplete] given.now db = .ok a ∧
        sequence ≠ 0 ∧ db.SequenceFree a sequence ∧
        checkpoint = ⟨organizationId, a.id, a.generation, sequence, kind, payload⟩ ∧
        db' = { db with checkpoints := db.checkpoints ++ [checkpoint] } := by
  unfold checkpointAttempt
  rw [bind_eq_ok]
  refine exists_congr (fun a => and_congr_right (fun hfenced => ?_))
  obtain ⟨-, horg, -⟩ :=
    QualificationDb.attempt?_eq_some (fencedAttempt_eq_ok.mp hfenced).1
  rw [check_bind_eq_ok, check_bind_eq_ok, constrain_eq_ok, constrain_eq_ok,
    pure_eq_ok, Prod.mk.injEq, List.any_eq_false]
  simp only [decide_eq_true_eq, decide_eq_false_iff_not, ← horg, QualificationDb.SequenceFree,
    eq_comm (b := checkpoint), eq_comm (b := db')]
  constructor
  · rintro ⟨hsequence, hfree, rfl, rfl⟩
    exact ⟨hsequence, hfree, rfl, rfl⟩
  · rintro ⟨hsequence, hfree, rfl, rfl⟩
    exact ⟨hsequence, hfree, rfl, rfl⟩

/-- The pinned bundles of an attempt in the order of their products. -/
def QualificationDb.pinned (db : QualificationDb) (organizationId attemptId : String) :
    List QualificationMissionBundle :=
  Sorting.sortedBy (·.productId) (db.bundlesOf organizationId attemptId)

theorem collectDependencies_eq_ok :
    collectDependencies organizationId a db = .ok ds ↔
      ∃ mission, db.mission? organizationId a.missionId = some mission ∧
        db.pinned organizationId a.id ≠ [] ∧
        (∀ b ∈ db.pinned organizationId a.id,
          db.membersOf b.sellerOrganizationId b.bundleId ≠ []) ∧
        ds = mission.dependencies organizationId ++
          bundleDependencies (db.pinned organizationId a.id) db := by
  unfold collectDependencies
  cases hmission : db.mission? organizationId a.missionId with
  | none => simp
  | some mission =>
    simp only [Option.some.injEq, exists_eq_left']
    show (if db.pinned organizationId a.id = [] then _ else _) = _ ↔ _
    split
    · next hnone => simp [hnone]
    · next hpinned =>
      split
      · next hempty =>
        refine ⟨nofun, ?_⟩
        rintro ⟨-, hmembers, -⟩
        obtain ⟨b, hb, hnone⟩ := List.any_eq_true.mp hempty
        exact absurd (List.isEmpty_iff.mp hnone) (hmembers b hb)
      · next hmembers =>
        rw [Bool.not_eq_true, List.any_eq_false] at hmembers
        constructor
        · intro h
          cases h
          refine ⟨hpinned, fun b hb hnone => hmembers b hb (List.isEmpty_iff.mpr hnone), rfl⟩
        · rintro ⟨-, -, rfl⟩
          rfl

theorem collectDependencies_ne_nil
    (h : collectDependencies organizationId a db = .ok ds) : ds ≠ [] := by
  obtain ⟨mission, -, -, -, rfl⟩ := collectDependencies_eq_ok.mp h
  simp [QualificationMission.dependencies]

/-- The rows that a snapshot stores. -/
def dependencyRows (organizationId attemptId : String) (ds : List DependencySnapshot) :
    List AttemptDependency :=
  ds.map (fun d => ⟨organizationId, attemptId, d⟩)

/-- The checkpoint of a snapshot. -/
def snapshotCheckpoint (organizationId : String) (a : QualificationAttempt) (digest : String)
    (count : Nat) : AttemptCheckpoint :=
  ⟨organizationId, a.id, a.generation, 1, "SNAPSHOT_COMPLETE",
    [("input_digest", .str digest), ("dependency_count", .nat count)]⟩

/-- The row of an attempt whose snapshot is stored. -/
def QualificationAttempt.snapshotted (a : QualificationAttempt) (digest : String) :
    QualificationAttempt :=
  { a with inputDigest := some digest, state := .snapshotComplete }

/-- Each kind and id of a snapshot occurs once. -/
def DistinctDependencies (ds : List DependencySnapshot) : Prop :=
  (ds.map (fun d => (d.kind, d.identifier))).Nodup

theorem snapshotAttempt_eq_ok :
    snapshotAttempt rt organizationId lease given db = .ok (ds, db') ↔
      ∃ a digest, fencedAttempt organizationId lease [.running, .snapshotComplete] given.now db =
          .ok a ∧
        collectDependencies organizationId a db = .ok ds ∧ snapshotDigest rt ds = .ok digest ∧
        ((db.dependenciesOf organizationId a.id ≠ [] ∧ a.inputDigest = some digest ∧ db' = db) ∨
          (db.dependenciesOf organizationId a.id = [] ∧ DistinctDependencies ds ∧
            db.SequenceFree a 1 ∧
            db' = QualificationDb.updateAttempt { db with
              dependencies := db.dependencies ++ dependencyRows organizationId a.id ds
              checkpoints := db.checkpoints ++
                [snapshotCheckpoint organizationId a digest ds.length] } a.id
              (·.snapshotted digest))) := by
  unfold snapshotAttempt
  constructor
  · intro h
    obtain ⟨a, hfenced, h⟩ := bind_eq_ok.mp h
    obtain ⟨collected, hcollect, h⟩ := bind_eq_ok.mp h
    obtain ⟨digest, hdigest, h⟩ := bind_eq_ok.mp h
    obtain ⟨-, horg, -⟩ :=
      QualificationDb.attempt?_eq_some (fencedAttempt_eq_ok.mp hfenced).1
    dsimp only at h
    split at h
    · next hstored =>
      split at h
      · cases h
      · next hsame =>
        cases h
        exact ⟨a, digest, hfenced, hcollect, hdigest, .inl ⟨hstored, not_not.mp hsame, rfl⟩⟩
    · next hstored =>
      obtain ⟨stored, hstore, h⟩ := bind_eq_ok.mp h
      obtain ⟨⟨⟩, hfree, h⟩ := bind_eq_ok.mp h
      unfold storeDependencies at hstore
      rw [check_bind_eq_ok, constrain_eq_ok, pure_eq_ok] at hstore
      obtain ⟨hnodup, rfl⟩ := hstore
      rw [constrain_eq_ok, List.any_eq_false] at hfree
      cases h
      refine ⟨a, digest, hfenced, hcollect, hdigest, .inr ⟨not_not.mp hstored, ?_, ?_, rfl⟩⟩
      · simpa [DistinctDependencies] using hnodup
      · simpa [QualificationDb.SequenceFree, ← horg] using hfree
  · rintro ⟨a, digest, hfenced, hcollect, hdigest, hcases⟩
    obtain ⟨-, horg, -⟩ :=
      QualificationDb.attempt?_eq_some (fencedAttempt_eq_ok.mp hfenced).1
    rw [hfenced, ok_bind, hcollect, ok_bind, hdigest, ok_bind]
    rcases hcases with ⟨hstored, hsame, rfl⟩ | ⟨hstored, hnodup, hfree, rfl⟩
    · simp [hstored, hsame]
    · have hdistinct : constrain (!decide (ds.map (fun d => (d.kind, d.identifier))).Nodup)
          "uq_qualification_attempt_dependency" = .ok () := by
        rw [constrain_eq_ok]
        simpa [DistinctDependencies] using hnodup
      have hsequence : constrain (db.checkpoints.any (fun k => k.organizationId = organizationId ∧
          k.attemptId = a.id ∧ k.sequence = 1)) "uq_qualification_checkpoint_sequence" =
          .ok () := by
        rw [constrain_eq_ok, List.any_eq_false]
        simpa [QualificationDb.SequenceFree, ← horg] using hfree
      simp only [hstored, ne_eq, not_true_eq_false, if_false, storeDependencies, hdistinct,
        hsequence, ok_bind]
      rfl

/-! ## Active bundles -/

/-- The active pointer of the product is the bundle that the dependency names, with its
    digest. -/
def DependencySnapshot.IsActive (d : DependencySnapshot) (db : QualificationDb) : Prop :=
  ∃ active ∈ db.activeBundles, active.organizationId = d.organizationId ∧
    active.productId = d.identifier ∧ active.bundleId = d.version ∧ active.bundleDigest = d.digest

instance (d : DependencySnapshot) (db : QualificationDb) : Decidable (d.IsActive db) :=
  inferInstanceAs (Decidable (∃ active ∈ db.activeBundles, _))

theorem mem_changedProductBundles {rows : List AttemptDependency} :
    productId ∈ changedProductBundles rows db ↔
      ∃ d ∈ rows, d.snapshot.kind = .productBundle ∧ ¬ d.snapshot.IsActive db ∧
        d.snapshot.identifier = productId := by
  unfold changedProductBundles DependencySnapshot.IsActive
  rw [Sorting.mem_sortedBy, List.mem_map]
  simp only [List.mem_filter, decide_eq_true_eq, List.any_eq_true, and_assoc]

theorem changedProductBundles_eq_nil {rows : List AttemptDependency} :
    changedProductBundles rows db = [] ↔
      ∀ d ∈ rows, d.snapshot.kind = .productBundle → d.snapshot.IsActive db := by
  rw [List.eq_nil_iff_forall_not_mem]
  constructor
  · intro h d hd hkind
    by_contra hactive
    exact h _ (mem_changedProductBundles.mpr ⟨d, hd, hkind, hactive, rfl⟩)
  · intro h productId hmem
    obtain ⟨d, hd, hkind, hactive, -⟩ := mem_changedProductBundles.mp hmem
    exact hactive (h d hd hkind)

/-! ## Replacements -/

/-- The row of a replacement. -/
def QualificationAttempt.replacement (a : QualificationAttempt) (given : Given) :
    QualificationAttempt where
  id := "qattempt_" ++ given.uuid a.id
  organizationId := a.organizationId
  missionId := a.missionId
  rootAttemptId := a.rootAttemptId
  predecessorAttemptId := some a.id
  replacementDepth := a.replacementDepth + 1
  state := .queued
  generation := 0
  createdAt := given.now

/-- The direct successor of an attempt. -/
def QualificationDb.successor? (db : QualificationDb) (a : QualificationAttempt) :
    Option QualificationAttempt :=
  db.attempts.find? (fun b => b.organizationId = a.organizationId ∧
    b.predecessorAttemptId = some a.id)

theorem replacementFor_eq_ok {b : QualificationAttempt} (horg : a.organizationId = organizationId) :
    replacementFor organizationId a given db = .ok (b, db') ↔
      (db.successor? a = some b ∧ db' = db) ∨
        (db.successor? a = none ∧ a.replacementDepth < 3 ∧
          (∀ c ∈ db.attempts, c.id ≠ (a.replacement given).id) ∧ b = a.replacement given ∧
          db' = { db with attempts := db.attempts ++ [a.replacement given] }) := by
  subst horg
  unfold replacementFor
  cases hsuccessor : db.successor? a with
  | some existing =>
    rw [QualificationDb.successor?] at hsuccessor
    simp only [hsuccessor, Except.ok.injEq, Prod.mk.injEq, Option.some.injEq, reduceCtorEq, false_and,
      or_false, eq_comm (b := db')]
  | none =>
    rw [QualificationDb.successor?] at hsuccessor
    simp only [hsuccessor]
    split
    · next hdepth =>
      constructor
      · rintro ⟨⟩
      · rintro (⟨hsome, -⟩ | ⟨-, hlow, -⟩)
        · cases hsome
        · omega
    · next hdepth =>
      rw [check_bind_eq_ok, constrain_eq_ok, pure_eq_ok, List.any_eq_false]
      simp only [decide_eq_true_eq, Prod.mk.injEq, reduceCtorEq, false_and, false_or, true_and,
        eq_comm (b := b), eq_comm (b := db')]
      constructor
      · rintro ⟨hfresh, rfl, rfl⟩
        exact ⟨by omega, hfresh, rfl, rfl⟩
      · rintro ⟨-, hfresh, rfl, rfl⟩
        exact ⟨hfresh, rfl, rfl⟩

/-! ## Decisions -/

/-- The rows that a decision records of the dependencies of its attempt. -/
def decisionRows (organizationId decisionId : String) (citedDependencyIds : List String)
    (dependencies : List AttemptDependency) : List DecisionDependency :=
  dependencies.map (fun d => ⟨organizationId, decisionId, d.snapshot,
    citedDependencyIds.contains d.snapshot.identifier⟩)

/-- The keys of a decision are free. -/
structure DecisionFree (db : QualificationDb) (decision : QualificationDecision) : Prop where
  id : ∀ d ∈ db.decisions, d.id ≠ decision.id
  attempt : ∀ d ∈ db.decisions, ¬ (d.organizationId = decision.organizationId ∧
    d.attemptId = decision.attemptId)
  input : ∀ d ∈ db.decisions, ¬ (d.organizationId = decision.organizationId ∧
    d.missionId = decision.missionId ∧ d.inputDigest = decision.inputDigest)
  current : ∀ d ∈ db.decisions, ¬ (d.organizationId = decision.organizationId ∧
    d.missionId = decision.missionId ∧ d.current = true)

theorem addDecision_eq_ok {decision : QualificationDecision} {dependencies : List AttemptDependency}
    (horg : decision.organizationId = organizationId) :
    addDecision organizationId decision dependencies citedDependencyIds db = .ok db' ↔
      DecisionFree db decision ∧ db' = { db with
        decisions := db.decisions ++ [decision]
        decisionDependencies := db.decisionDependencies ++
          decisionRows organizationId decision.id citedDependencyIds dependencies } := by
  unfold addDecision
  rw [check_bind_eq_ok, check_bind_eq_ok, check_bind_eq_ok,
    check_bind_eq_ok, constrain_eq_ok, constrain_eq_ok, constrain_eq_ok, constrain_eq_ok,
    pure_eq_ok, List.any_eq_false, List.any_eq_false, List.any_eq_false,
    List.any_eq_false]
  simp only [decide_eq_true_eq, ← horg]
  constructor
  · rintro ⟨hid, hattempt, hinput, hcurrent, rfl⟩
    exact ⟨⟨hid, hattempt, hinput, hcurrent⟩, rfl⟩
  · rintro ⟨hfree, rfl⟩
    exact ⟨hfree.id, hfree.attempt, hfree.input, hfree.current, rfl⟩

/-! ## Finalization -/

/-- The attempt is marked stale. -/
def QualificationAttempt.staled (a : QualificationAttempt) (changed : List String) :
    QualificationAttempt :=
  { a with state := .stale, staleReason := some (",".intercalate changed) }

/-- The event of a stale attempt. -/
def staleEvent (a : QualificationAttempt) (replacementId : String) (changed : List String) :
    OutboxEvent where
  organizationId := a.organizationId
  aggregateType := "QUALIFICATION_ATTEMPT"
  aggregateId := a.id
  eventType := "QUALIFICATION_ATTEMPT_STALE"
  eventKey := "attempt-stale:" ++ a.id ++ ":" ++ toString a.generation
  payload := [("attempt_id", .str a.id), ("replacement_attempt_id", .str replacementId),
    ("changed_dependencies", .strs changed)]

theorem finalizeStale_eq_ok {changed : List String} (horg : a.organizationId = organizationId) :
    finalizeStale organizationId a changed given db = .ok (result, db') ↔
      ∃ b replaced, replacementFor organizationId a given
          (db.updateAttempt a.id (·.staled changed)) = .ok (b, replaced) ∧
        addOutbox (staleEvent a b.id changed) replaced = .ok db' ∧ result = .stale a.id b.id := by
  subst horg
  unfold finalizeStale
  rw [bind_eq_ok]
  constructor
  · rintro ⟨⟨b, replaced⟩, hreplace, h⟩
    obtain ⟨db'', houtbox, h⟩ := bind_eq_ok.mp h
    cases h
    exact ⟨b, replaced, hreplace, houtbox, rfl⟩
  · rintro ⟨b, replaced, hreplace, houtbox, rfl⟩
    refine ⟨(b, replaced), hreplace, ?_⟩
    exact bind_eq_ok.mpr ⟨db', houtbox, rfl⟩

/-- The decision of an attempt. -/
def QualificationAttempt.decision (a : QualificationAttempt)
    (inputDigest decisionDigest recommendedProductId : String) (payload : List (String × Value))
    (given : Given) : QualificationDecision where
  id := "qdec_" ++ given.uuid a.id
  organizationId := a.organizationId
  missionId := a.missionId
  attemptId := a.id
  inputDigest := inputDigest
  decisionDigest := decisionDigest
  recommendedProductId := recommendedProductId
  payload := payload
  approvalState := .pending
  current := true

/-- The attempt is completed. -/
def QualificationAttempt.concluded (a : QualificationAttempt) : QualificationAttempt :=
  { a with state := .completed }

/-- The event of a decision. -/
def decisionEvent (decision : QualificationDecision) : OutboxEvent where
  organizationId := decision.organizationId
  aggregateType := "QUALIFICATION_DECISION"
  aggregateId := decision.id
  eventType := "QUALIFICATION_DECISION_CREATED"
  eventKey := "decision-created:" ++ decision.id
  payload := [("decision_id", .str decision.id), ("mission_id", .str decision.missionId),
    ("attempt_id", .str decision.attemptId), ("input_digest", .str decision.inputDigest)]

/-- What the digest of a decision hashes. -/
def decisionPayload (attemptId inputDigest recommendedProductId : String)
    (payload : List (String × Value)) : Value :=
  .obj [("attempt_id", .str attemptId), ("input_digest", .str inputDigest),
    ("recommended_product_id", .str recommendedProductId), ("payload", .obj payload)]

theorem finalizeCompleted_eq_ok {dependencies : List AttemptDependency}
    {recommendedProductId : String} (horg : a.organizationId = organizationId) :
    finalizeCompleted rt organizationId a dependencies inputDigest recommendedProductId payload
        citedDependencyIds given db = .ok (result, db') ↔
      ∃ decisionDigest,
        contentDigest rt (decisionPayload a.id inputDigest recommendedProductId payload) =
          .ok decisionDigest ∧
        ∃ d, d = a.decision inputDigest decisionDigest recommendedProductId payload given ∧
          ∃ decided, addDecision organizationId d dependencies citedDependencyIds db =
              .ok decided ∧
            addOutbox (decisionEvent d)
              (decided.updateAttempt a.id (·.concluded)) = .ok db' ∧
            result = .completed a.id d.id := by
  subst horg
  unfold finalizeCompleted
  rw [bind_eq_ok]
  constructor
  · rintro ⟨decisionDigest, hdigest, h⟩
    obtain ⟨decided, hdecide, h⟩ := bind_eq_ok.mp h
    obtain ⟨db'', houtbox, h⟩ := bind_eq_ok.mp h
    cases h
    exact ⟨decisionDigest, hdigest, _, rfl, decided, hdecide, houtbox, rfl⟩
  · rintro ⟨decisionDigest, hdigest, _, rfl, decided, hdecide, houtbox, rfl⟩
    refine ⟨decisionDigest, hdigest, ?_⟩
    refine bind_eq_ok.mpr ⟨decided, hdecide, ?_⟩
    exact bind_eq_ok.mpr ⟨db', houtbox, rfl⟩

/-- Every cited id is that of a dependency. -/
def Cites (dependencies : List AttemptDependency) (citedDependencyIds : List String) : Prop :=
  ∀ cited ∈ citedDependencyIds, ∃ d ∈ dependencies, d.snapshot.identifier = cited

/-- The product is one whose bundle is a dependency. -/
def Recommends (dependencies : List AttemptDependency) (productId : String) : Prop :=
  ∃ d ∈ dependencies, d.snapshot.kind = .productBundle ∧ d.snapshot.identifier = productId

theorem finalizeAttempt_eq_ok {recommendedProductId : String} :
    finalizeAttempt rt organizationId lease recommendedProductId payload citedDependencyIds given db =
        .ok (result, db') ↔
      ∃ a, fencedAttempt organizationId lease [.snapshotComplete] given.now db = .ok a ∧
        ((changedProductBundles (db.dependenciesOf organizationId a.id) db ≠ [] ∧
            finalizeStale organizationId a
              (changedProductBundles (db.dependenciesOf organizationId a.id) db) given db =
              .ok (result, db')) ∨
          (changedProductBundles (db.dependenciesOf organizationId a.id) db = [] ∧
            Cites (db.dependenciesOf organizationId a.id) citedDependencyIds ∧
            Recommends (db.dependenciesOf organizationId a.id) recommendedProductId ∧
            ∃ inputDigest, a.inputDigest = some inputDigest ∧
              finalizeCompleted rt organizationId a (db.dependenciesOf organizationId a.id)
                inputDigest recommendedProductId payload citedDependencyIds given db =
                .ok (result, db'))) := by
  unfold finalizeAttempt
  rw [bind_eq_ok]
  refine exists_congr (fun a => and_congr_right (fun _ => ?_))
  dsimp only
  split
  · next hchanged => simp [hchanged]
  · next hchanged =>
    rw [not_not] at hchanged
    simp only [hchanged, ne_eq, not_true_eq_false, false_and, true_and, false_or]
    split
    · next hcited =>
      refine ⟨nofun, ?_⟩
      rintro ⟨hcites, -⟩
      simp [Cites] at hcites hcited
      obtain ⟨cited, hmem, hnone⟩ := hcited
      obtain ⟨d, hd, hid⟩ := hcites cited hmem
      exact absurd hid (hnone d hd)
    · next hcited =>
      split
      · next hrecommended =>
        refine ⟨nofun, ?_⟩
        rintro ⟨-, ⟨d, hd, hkind, hid⟩, -⟩
        simp at hrecommended
        exact absurd hid (hrecommended d hd hkind)
      · next hrecommended =>
        have hcites : Cites (db.dependenciesOf organizationId a.id) citedDependencyIds := by
          simpa [Cites] using hcited
        have hrecommends :
            Recommends (db.dependenciesOf organizationId a.id) recommendedProductId := by
          simpa [Recommends] using hrecommended
        simp only [hcites, hrecommends, true_and]
        cases hdigest : a.inputDigest with
        | none => simp
        | some inputDigest => simp

/-! ## Invalidation -/

/-- The mission of a decision that is not failed or cancelled, with the attempt of the
    decision: what invalidation reopens. -/
def openMission (organizationId : String) (decision : QualificationDecision)
    (db : QualificationDb) : Option (QualificationAttempt × QualificationMission) :=
  match db.attempt? organizationId decision.attemptId,
      db.mission? organizationId decision.missionId with
  | some attempt, some mission =>
    if mission.state = .failed ∨ mission.state = .cancelled then none else some (attempt, mission)
  | _, _ => none

/-- The event that reopens a mission. -/
def reopenEvent (organizationId productId : String) (mission : QualificationMission)
    (active : ActiveProductBundle) (replacementId : String) : OutboxEvent where
  organizationId := organizationId
  aggregateType := "QUALIFICATION_MISSION"
  aggregateId := mission.id
  eventType := "QUALIFICATION_MISSION_READY"
  eventKey := "qualification-mission-ready:" ++ mission.id ++ ":bundle:" ++ productId ++ ":" ++
    toString active.generation
  payload := [("mission_id", .str mission.id), ("trace_id", .str mission.traceId),
    ("organization_id", .str organizationId), ("reason", .str "ACTIVE_PRODUCT_BUNDLE_CHANGED"),
    ("product_id", .str productId), ("replacement_attempt_id", .str replacementId)]

/-- The mission is ready again. -/
def readyMission (missionId : String) (db : QualificationDb) : QualificationDb :=
  { db with
    missions := Table.update (·.id) missionId (fun m => { m with state := .ready }) db.missions }

theorem reopenMission_eq_ok {decision : QualificationDecision} {active : ActiveProductBundle}
    {replacement : Option String} :
    reopenMission organizationId decision productId active given db = .ok (replacement, db') ↔
      (openMission organizationId decision db = none ∧ replacement = none ∧ db' = db) ∨
        ∃ a mission, openMission organizationId decision db = some (a, mission) ∧
          ∃ b replaced, replacementFor organizationId a given db = .ok (b, replaced) ∧
            addOutbox (reopenEvent organizationId productId mission active b.id)
              (readyMission mission.id replaced) = .ok db' ∧ replacement = some b.id := by
  unfold reopenMission openMission
  cases hattempt : db.attempt? organizationId decision.attemptId with
  | none => simp [eq_comm]
  | some a =>
    cases hmission : db.mission? organizationId decision.missionId with
    | none => simp [eq_comm]
    | some mission =>
      dsimp only
      split
      · next hended => simp [eq_comm]
      · next hopen =>
        simp only [reduceCtorEq, false_and, false_or, Option.some.injEq, Prod.mk.injEq]
        constructor
        · intro h
          obtain ⟨⟨b, replaced⟩, hreplace, h⟩ := bind_eq_ok.mp h
          obtain ⟨db'', houtbox, h⟩ := bind_eq_ok.mp h
          cases h
          exact ⟨a, mission, ⟨rfl, rfl⟩, b, replaced, hreplace, houtbox, rfl⟩
        · rintro ⟨_, _, ⟨rfl, rfl⟩, b, replaced, hreplace, houtbox, rfl⟩
          refine bind_eq_ok.mpr ⟨(b, replaced), hreplace, ?_⟩
          exact bind_eq_ok.mpr ⟨db', houtbox, rfl⟩

/-- A round of the invalidation leaves an active decision alone. It retires any other, and
    reopens its mission if its product still has a pointer. -/
theorem invalidateDecision_eq_ok {row : QualificationDecision × DecisionDependency}
    {result result' : BundleInvalidationResult} :
    invalidateDecision organizationId productId given row (result, db) = .ok (result', db') ↔
      (row.2.isActive (db.activeBundle row.2.snapshot.organizationId productId) = true ∧
          result' = result ∧ db' = db) ∨
        (row.2.isActive (db.activeBundle row.2.snapshot.organizationId productId) = false ∧
          ((db.activeBundle row.2.snapshot.organizationId productId = none ∧
              db' = retireDecision organizationId row.1 db ∧
              result' = { result with
                invalidatedDecisionIds := result.invalidatedDecisionIds ++ [row.1.id] }) ∨
            ∃ active replacement,
              db.activeBundle row.2.snapshot.organizationId productId = some active ∧
              reopenMission organizationId row.1 productId active given
                (retireDecision organizationId row.1 db) = .ok (replacement, db') ∧
              result' = { result with
                invalidatedDecisionIds := result.invalidatedDecisionIds ++ [row.1.id]
                replacementAttemptIds :=
                  result.replacementAttemptIds ++ replacement.toList })) := by
  unfold invalidateDecision
  dsimp only
  split
  · next hactive =>
    simp only [hactive, true_and, Bool.true_eq_false, false_and, or_false, Except.ok.injEq,
      Prod.mk.injEq, eq_comm (b := result'), eq_comm (b := db')]
  · next hstale =>
    rw [Bool.not_eq_true] at hstale
    simp only [hstale, Bool.false_eq_true, false_and, true_and, false_or]
    cases hactive : db.activeBundle row.2.snapshot.organizationId productId with
    | none =>
      simp only [Except.ok.injEq, Prod.mk.injEq, true_and, reduceCtorEq, false_and, exists_false,
        or_false]
      constructor
      · rintro ⟨rfl, rfl⟩
        exact ⟨rfl, rfl⟩
      · rintro ⟨rfl, rfl⟩
        exact ⟨rfl, rfl⟩
    | some active =>
      simp only [reduceCtorEq, false_and, false_or, Option.some.injEq]
      constructor
      · intro h
        obtain ⟨⟨replacement, reopened⟩, hreopen, h⟩ := bind_eq_ok.mp h
        cases h
        exact ⟨active, replacement, rfl, hreopen, rfl⟩
      · rintro ⟨_, replacement, rfl, hreopen, rfl⟩
        exact bind_eq_ok.mpr ⟨(replacement, db'), hreopen, rfl⟩

/-! ## Introductions -/

/-- What an introduction discloses, with what it was disclosed for. -/
def introductionReceipt (e : MarketplaceEngagement) (inputDigest sharedFieldsHash : String)
    (sharedFields : List (String × Value)) (buyer seller : MarketplaceConsent) :
    List (String × Value) :=
  [("engagement_id", .str e.id), ("decision_id", .str e.decisionId),
    ("input_digest", .str inputDigest), ("buyer_consent_id", .str buyer.id),
    ("seller_consent_id", .str seller.id), ("shared_fields_hash", .str sharedFieldsHash),
    ("shared_fields", .obj sharedFields)]

/-- The introduction of an engagement. -/
def introductionOf (e : MarketplaceEngagement) (inputDigest sharedFieldsHash : String)
    (sharedFields : List (String × Value)) (buyer seller : MarketplaceConsent) (given : Given) :
    QualifiedIntroduction :=
  ⟨"intro_" ++ given.uuid "intro", e.id, e.decisionId, e.sellerOrganizationId, inputDigest,
    sharedFieldsHash, introductionReceipt e inputDigest sharedFieldsHash sharedFields buyer seller⟩

/-- The effect of an introduction. -/
def introductionEffect (organizationId : String) (i : QualifiedIntroduction) :
    QualificationEffect :=
  ⟨organizationId, "QUALIFIED_INTRODUCTION",
    "introduction:" ++ i.engagementId ++ ":" ++ i.inputDigest, i.receipt, i.id⟩

def introductionEvent (organizationId : String) (i : QualifiedIntroduction) : OutboxEvent where
  organizationId := organizationId
  aggregateType := "QUALIFIED_INTRODUCTION"
  aggregateId := i.id
  eventType := "QUALIFIED_INTRODUCTION_CREATED"
  eventKey := "introduction-created:" ++ i.engagementId ++ ":" ++ i.inputDigest
  payload := i.receipt

/-- The keys of an introduction and of its effect are free. -/
structure IntroductionFree (db : QualificationDb) (organizationId : String)
    (i : QualifiedIntroduction) : Prop where
  id : ∀ x ∈ db.introductions, x.id ≠ i.id
  decision : ∀ x ∈ db.introductions, ¬ (x.decisionId = i.decisionId ∧
    x.sellerOrganizationId = i.sellerOrganizationId)
  effect : ∀ x ∈ db.effects, ¬ (x.organizationId = organizationId ∧
    x.effectKind = (introductionEffect organizationId i).effectKind ∧
    x.semanticKey = (introductionEffect organizationId i).semanticKey)

/-- The introduction is written, and its engagement is introduced. -/
def introduced (organizationId : String) (i : QualifiedIntroduction) (db : QualificationDb) :
    QualificationDb :=
  { db with
    introductions := db.introductions ++ [i]
    effects := db.effects ++ [introductionEffect organizationId i]
    engagements := Table.update (·.id) i.engagementId (fun e => { e with state := .introduced })
      db.engagements }

theorem createIntroduction_eq_ok {e : MarketplaceEngagement} {sharedFieldsHash : String}
    {sharedFields : List (String × Value)} {buyer seller : MarketplaceConsent}
    {i : QualifiedIntroduction} :
    createIntroduction organizationId e e.decisionId inputDigest sharedFields sharedFieldsHash buyer
        seller given db = .ok (i, db') ↔
      i = introductionOf e inputDigest sharedFieldsHash sharedFields buyer seller given ∧
        IntroductionFree db organizationId i ∧
        addOutbox (introductionEvent organizationId i) (introduced organizationId i db) =
          .ok db' := by
  unfold createIntroduction
  dsimp only
  rw [check_bind_eq_ok, check_bind_eq_ok, check_bind_eq_ok,
    constrain_eq_ok, constrain_eq_ok, constrain_eq_ok, List.any_eq_false, List.any_eq_false,
    List.any_eq_false]
  simp only [decide_eq_true_eq]
  constructor
  · rintro ⟨hid, hdecision, heffect, h⟩
    obtain ⟨added, hadd, h⟩ := bind_eq_ok.mp h
    cases h
    exact ⟨rfl, ⟨hid, hdecision, heffect⟩, hadd⟩
  · rintro ⟨rfl, ⟨hid, hdecision, heffect⟩, hadd⟩
    refine ⟨hid, hdecision, heffect, ?_⟩
    exact bind_eq_ok.mpr ⟨db', hadd, rfl⟩

theorem grantedConsent_eq_some {engagementId : String} {party : ConsentParty}
    {c : MarketplaceConsent} (h : grantedConsent engagementId inputDigest now party db = some c) :
    c ∈ db.consents ∧ c.engagementId = engagementId ∧ c.inputDigest = inputDigest ∧
      c.state = .granted ∧ now < c.expiresAt ∧ c.party = party := by
  have hmem := List.mem_of_getLast? h
  rw [List.mem_filter, decide_eq_true_eq] at hmem
  exact hmem

/-- What an introduction of an engagement rests on. -/
structure MayIntroduce (db : QualificationDb) (organizationId : String) (e : MarketplaceEngagement)
    (sharedFieldsHash : String) (now : Int) (buyer seller : MarketplaceConsent) : Prop where
  first : ∀ x ∈ db.introductions, x.engagementId ≠ e.id
  decision : ∃ d ∈ db.decisions, d.organizationId = organizationId ∧ d.id = e.decisionId ∧
    d.inputDigest = e.inputDigest ∧ d.current = true ∧ d.approvalState = .approved
  live : now < e.expiresAt
  byBuyer : grantedConsent e.id e.inputDigest now .buyer db = some buyer
  bySeller : grantedConsent e.id e.inputDigest now .seller db = some seller
  actors : buyer.actorId ≠ seller.actorId
  buyerFields : buyer.approvedFieldsHash = sharedFieldsHash
  sellerFields : seller.approvedFieldsHash = sharedFieldsHash

theorem introduce_eq_ok {engagementId decisionId : String} {sharedFields : List (String × Value)}
    {i : QualifiedIntroduction}
    (h : introduce rt organizationId engagementId decisionId inputDigest sharedFields given db =
      .ok (i, db')) :
    ∃ sharedFieldsHash, contentDigest rt (.obj sharedFields) = .ok sharedFieldsHash ∧
      ∃ e ∈ db.engagements, e.id = engagementId ∧ e.decisionId = decisionId ∧
        e.inputDigest = inputDigest ∧ e.buyerOrganizationId = organizationId ∧
        ((i ∈ db.introductions ∧ i.engagementId = e.id ∧ i.inputDigest = e.inputDigest ∧
            i.sharedFieldsHash = sharedFieldsHash ∧ db' = db) ∨
          ∃ buyer seller, MayIntroduce db organizationId e sharedFieldsHash given.now buyer seller ∧
            i = introductionOf e e.inputDigest sharedFieldsHash sharedFields buyer seller given ∧
            IntroductionFree db organizationId i ∧
            addOutbox (introductionEvent organizationId i) (introduced organizationId i db) =
              .ok db') := by
  unfold introduce at h
  obtain ⟨sharedFieldsHash, hhash, h⟩ := bind_eq_ok.mp h
  refine ⟨sharedFieldsHash, hhash, ?_⟩
  split at h
  · cases h
  · next e hfind =>
    have hkeys := List.find?_some hfind
    simp only [decide_eq_true_eq] at hkeys
    obtain ⟨hid, hdecisionId, hdigest, hbuyer⟩ := hkeys
    refine ⟨e, List.mem_of_find?_eq_some hfind, hid, hdecisionId, hdigest, hbuyer, ?_⟩
    subst hdecisionId hdigest
    split at h
    · next existing hexisting =>
      have hof := List.find?_some hexisting
      simp only [decide_eq_true_eq] at hof
      split at h
      · cases h
      · next hsame =>
        cases h
        rw [not_or, not_not, not_not] at hsame
        exact .inl ⟨List.mem_of_find?_eq_some hexisting, hof, hsame.1, hsame.2, rfl⟩
    · next hnone =>
      obtain ⟨hdecision, h⟩ := unless_throw_eq_ok.mp h
      obtain ⟨hlive, h⟩ := unless_throw_eq_ok.mp h
      split at h
      · next buyer seller hbuyerConsent hsellerConsent =>
        obtain ⟨hactors, h⟩ := unless_throw_eq_ok.mp h
        obtain ⟨hfields, h⟩ := unless_throw_eq_ok.mp h
        rw [not_or, not_not, not_not] at hfields
        rw [Bool.not_eq_true', Bool.not_eq_false, List.any_eq_true] at hdecision
        simp only [decide_eq_true_eq] at hdecision
        refine .inr ⟨buyer, seller, ⟨?_, ?_, not_le.mp hlive, hbuyerConsent, hsellerConsent, hactors,
          hfields.1, hfields.2⟩, createIntroduction_eq_ok.mp h⟩
        · intro x hx hxid
          exact List.find?_eq_none.mp hnone x hx (by simpa using hxid)
        · exact hdecision
      · cases h

end Operations

end Persistence
