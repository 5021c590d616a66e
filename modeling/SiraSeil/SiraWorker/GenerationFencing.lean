-- SUMMARY: Every write of an attempt is fenced by its latest lease, generations only grow, and what an attempt has settled stays as it is.
import SiraSeil.SiraWorker.QualificationRuns

/-!
# Generation fencing

A worker that was slow, crashed or lost its lease may come back at any time with a lease of
an older generation. The fence refuses it, and whatever the others did in between, the rows
of an attempt that has ended and the snapshot of one that has not are still the same.
-/

namespace SiraWorker

open Domain Persistence

/-- The lease under which a transaction writes to an attempt. -/
def Transaction.lease? : Transaction → Option AttemptLease
  | .snapshotAttempt lease => some lease
  | .checkpointAttempt lease _ _ _ => some lease
  | .finalizeAttempt lease _ _ _ => some lease
  | .finalizeEvaluation lease _ => some lease
  | _ => none

/-- The lease is of the latest generation of its attempt and of its current owner, it has not
    expired, and the attempt has not ended. -/
def Holds (db : QualificationDb) (organizationId : String) (lease : AttemptLease) (now : Int) :
    Prop :=
  ∃ a ∈ db.attempts, a.organizationId = organizationId ∧ a.id = lease.attemptId ∧
    a.generation = lease.generation ∧ a.leaseOwner = some lease.leaseOwner ∧
    (∃ expiresAt, a.leaseExpiresAt = some expiresAt ∧ now < expiresAt) ∧ ¬ a.Ended

/-- The lease is of the next generation of an attempt that has not ended. -/
def Claims (db : QualificationDb) (organizationId : String) (lease : AttemptLease) : Prop :=
  ∃ a ∈ db.attempts, a.organizationId = organizationId ∧ a.id = lease.attemptId ∧
    lease.generation = a.generation + 1 ∧ ¬ a.Ended

/-- What generations fence after transactions in their order. -/
structure Fenced (rt : Runtime) (ts : List Submitted) : Prop where
  /-- A snapshot, a checkpoint or a finalization that commits holds its lease. -/
  writes : ∀ t lease o next, t.transaction.lease? = some lease →
    qualify rt t (tablesAfter rt ts) = .ok (o, next) →
    Holds (tablesAfter rt ts) t.organizationId lease t.given.now
  claims : ∀ t lease next, qualify rt t (tablesAfter rt ts) = .ok (.lease lease, next) →
    Claims (tablesAfter rt ts) t.organizationId lease
  /-- A later lease of an attempt is of a greater generation. -/
  increases : ∀ t lease next later t' lease' next',
    qualify rt t (tablesAfter rt ts) = .ok (.lease lease, next) →
    qualify rt t' (tablesAfter rt (ts ++ t :: later)) = .ok (.lease lease', next') →
    lease'.attemptId = lease.attemptId → lease.generation < lease'.generation
  /-- A stored snapshot stays, and so does its digest. -/
  snapshots : ∀ a ∈ (tablesAfter rt ts).attempts,
    (tablesAfter rt ts).dependenciesOf a.organizationId a.id ≠ [] → ∀ later,
      (tablesAfter rt (ts ++ later)).dependenciesOf a.organizationId a.id =
        (tablesAfter rt ts).dependenciesOf a.organizationId a.id ∧
      ∃ b ∈ (tablesAfter rt (ts ++ later)).attempts, b.id = a.id ∧ b.inputDigest = a.inputDigest
  oneDecision : ∀ d ∈ (tablesAfter rt ts).decisions, ∀ e ∈ (tablesAfter rt ts).decisions,
    d.attemptId = e.attemptId → d = e
  oneSuccessor : ∀ a ∈ (tablesAfter rt ts).attempts, ∀ b ∈ (tablesAfter rt ts).attempts,
    a.predecessorAttemptId.isSome = true → a.predecessorAttemptId = b.predecessorAttemptId → a = b
  depth : ∀ a ∈ (tablesAfter rt ts).attempts, a.replacementDepth ≤ 3
  /-- The row of a completed or stale attempt is never written again. -/
  ended : ∀ a ∈ (tablesAfter rt ts).attempts, a.Ended → ∀ later,
    a ∈ (tablesAfter rt (ts ++ later)).attempts
  oneCurrent : ∀ d ∈ (tablesAfter rt ts).decisions, ∀ e ∈ (tablesAfter rt ts).decisions,
    d.organizationId = e.organizationId → d.missionId = e.missionId → d.current = true →
    e.current = true → d = e

section Fencing

variable {rt : Runtime} {organizationId : String} {db db' : QualificationDb} {given : Given}

/-! ## Writing under a lease -/

variable {lease : AttemptLease}

theorem holds_of_fencedAttempt {allowedStates : List AttemptState} {now : Int}
    {a : QualificationAttempt} (h : fencedAttempt organizationId lease allowedStates now db = .ok a)
    (hcompleted : AttemptState.completed ∉ allowedStates)
    (hstale : AttemptState.stale ∉ allowedStates) : Holds db organizationId lease now := by
  obtain ⟨hfind, hfenced⟩ := fencedAttempt_eq_ok.mp h
  obtain ⟨ha, horg, hid⟩ := QualificationDb.attempt?_eq_some hfind
  obtain ⟨hgeneration, howner, hexpires, hstate⟩ := QualificationAttempt.fencedBy_iff.mp hfenced
  refine ⟨a, ha, horg, hid, hgeneration, howner, hexpires, ?_⟩
  rintro (hended | hended)
  · rw [hended] at hstate
    exact hcompleted hstate
  · rw [hended] at hstate
    exact hstale hstate

theorem holds_of_finalizeAttempt {recommendedProductId : String} {payload : List (String × Value)}
    {citedDependencyIds : List String} {result : FinalizationResult}
    (h : finalizeAttempt rt organizationId lease recommendedProductId payload citedDependencyIds
      given db = .ok (result, db')) : Holds db organizationId lease given.now := by
  obtain ⟨a, hfenced, -⟩ := finalizeAttempt_eq_ok.mp h
  exact holds_of_fencedAttempt hfenced (by simp) (by simp)

theorem holds_of_qualify {t : Submitted} {o : Outcome} (hlease : t.transaction.lease? = some lease)
    (h : qualify rt t db = .ok (o, db')) : Holds db t.organizationId lease t.given.now := by
  obtain ⟨organizationId, transaction, given⟩ := t
  unfold qualify at h
  cases transaction
  case snapshotAttempt =>
    cases hlease
    obtain ⟨ds, h, -⟩ := outcome_eq_ok.mp h
    obtain ⟨a, digest, hfenced, -⟩ := snapshotAttempt_eq_ok.mp h
    exact holds_of_fencedAttempt hfenced (by simp) (by simp)
  case checkpointAttempt =>
    cases hlease
    obtain ⟨checkpoint, h, -⟩ := outcome_eq_ok.mp h
    obtain ⟨a, hfenced, -⟩ := checkpointAttempt_eq_ok.mp h
    exact holds_of_fencedAttempt hfenced (by simp) (by simp)
  case finalizeAttempt =>
    cases hlease
    obtain ⟨result, h, -⟩ := outcome_eq_ok.mp h
    exact holds_of_finalizeAttempt h
  case finalizeEvaluation =>
    cases hlease
    obtain ⟨result, h, -⟩ := outcome_eq_ok.mp h
    obtain ⟨finalized, hfinalize, -⟩ := finalizeEvaluation_eq_ok.mp h
    exact holds_of_finalizeAttempt hfinalize
  all_goals cases hlease

/-! ## Claims -/

theorem claims_of_claimAttempt {attemptId leaseOwner : String} {leaseSeconds : Int}
    (h : claimAttempt organizationId attemptId leaseOwner leaseSeconds given db =
      .ok (lease, db')) :
    Claims db organizationId lease ∧
      ∃ a ∈ db'.attempts, a.id = lease.attemptId ∧ a.generation = lease.generation := by
  obtain ⟨-, a, hfind, hstate, -, -, rfl, rfl⟩ := claimAttempt_eq_ok.mp h
  obtain ⟨ha, horg, hid⟩ := QualificationDb.attempt?_eq_some hfind
  constructor
  · refine ⟨a, ha, horg, hid, rfl, ?_⟩
    rintro (hended | hended)
    · simp [AttemptState.claimable, hended] at hstate
    · simp [AttemptState.claimable, hended] at hstate
  · exact ⟨_, Table.mem_update.mpr (.inl ⟨a, ha, rfl, rfl⟩), hid, rfl⟩

theorem claims_of_qualify {t : Submitted} (hsound : db.kernel.Sound rt)
    (h : qualify rt t db = .ok (.lease lease, db')) :
    Claims db t.organizationId lease ∧
      ∃ a ∈ db'.attempts, a.id = lease.attemptId ∧ lease.generation ≤ a.generation := by
  obtain ⟨organizationId, transaction, given⟩ := t
  unfold qualify at h
  cases transaction
  case claimAttempt =>
    obtain ⟨lease', h, heq⟩ := outcome_eq_ok.mp h
    cases heq
    obtain ⟨hclaims, a, ha, hid, hgeneration⟩ := claims_of_claimAttempt h
    exact ⟨hclaims, a, ha, hid, hgeneration.ge⟩
  case claimAndSnapshot =>
    obtain ⟨lease', h, heq⟩ := outcome_eq_ok.mp h
    cases heq
    obtain ⟨claimed, hclaim, ds, hsnapshot⟩ := claimAndSnapshot_eq_ok.mp h
    obtain ⟨hclaims, a, ha, hid, hgeneration⟩ := claims_of_claimAttempt hclaim
    refine ⟨hclaims, ?_⟩
    -- The snapshot keeps the generation of the claim.
    have hclaimed := (hsound.moves (moves_of_claimAttempt hclaim)).1
    obtain ⟨b, hb, hsame, hle, -⟩ :=
      (hclaimed.moves (moves_of_snapshotAttempt hsnapshot)).2.attempts a ha
    exact ⟨b, hb, hsame.id.trans hid, hgeneration.ge.trans hle⟩
  all_goals
    obtain ⟨r, -, heq⟩ := outcome_eq_ok.mp h
    cases heq

end Fencing

/-! ## Runs -/

section Runs

variable (rt : Runtime)

theorem depth_le {k : Kernel} {a : QualificationAttempt} (hsound : k.Sound rt)
    (ha : a ∈ k.attempts) : a.replacementDepth ≤ 3 := by
  rcases hsound.descends a ha with ⟨-, hdepth⟩ | ⟨p, -, -, -, -, hdepth, hlow⟩
  · omega
  · omega

theorem eq_of_predecessor {k : Kernel} {a b : QualificationAttempt} (hsound : k.Sound rt)
    (ha : a ∈ k.attempts) (hb : b ∈ k.attempts) (hsome : a.predecessorAttemptId.isSome = true)
    (heq : a.predecessorAttemptId = b.predecessorAttemptId) : a = b := by
  rcases hsound.descends a ha with ⟨hnone, -⟩ | ⟨p, hp, horg, -, hpredecessor, -⟩
  · rw [hnone] at hsome
    cases hsome
  rcases hsound.descends b hb with ⟨hnone, -⟩ | ⟨q, hq, horg', -, hpredecessor', -⟩
  · rw [heq, hnone] at hsome
    cases hsome
  -- Both replace one row, so they are of one tenant.
  have hid : p.id = q.id := by
    rw [hpredecessor, hpredecessor'] at heq
    exact Option.some.inj heq
  obtain rfl := hsound.attempts.eq hp hq hid
  apply hsound.successors.eq
  · exact List.mem_filter.mpr ⟨ha, hsome⟩
  · exact List.mem_filter.mpr ⟨hb, heq ▸ hsome⟩
  · exact Prod.ext (horg.symm.trans horg') heq

theorem eq_of_attemptId {k : Kernel} {d e : QualificationDecision} (hsound : k.Sound rt)
    (hd : d ∈ k.decisions) (he : e ∈ k.decisions) (heq : d.attemptId = e.attemptId) : d = e := by
  obtain ⟨a, ha, hof, -⟩ := hsound.decided d hd
  obtain ⟨b, hb, hof', -⟩ := hsound.decided e he
  obtain rfl := hsound.attempts.eq ha hb (hof.2.symm.trans (heq.trans hof'.2))
  exact hsound.oneDecision.eq hd he (Prod.ext (hof.1.trans hof'.1.symm) heq)

theorem generation_fencing (ts : List Submitted) : Fenced rt ts := by
  have hsound := sound_tablesAfter rt ts
  constructor
  · intro t lease o next hlease h
    exact holds_of_qualify hlease h
  · intro t lease next h
    exact (claims_of_qualify hsound h).1
  · intro t lease next later t' lease' next' h h' hid
    obtain ⟨-, a, ha, haid, hle⟩ := claims_of_qualify hsound h
    obtain ⟨⟨b, hb, -, hbid, hgeneration, -⟩, -⟩ :=
      claims_of_qualify (sound_tablesAfter rt (ts ++ t :: later)) h'
    have hadvances := advances_tablesAfter rt (ts ++ [t]) later
    rw [tablesAfter_of_ok rt h, List.append_assoc, List.singleton_append] at hadvances
    obtain ⟨a', ha', hsame, hle', -⟩ := hadvances.attempts a ha
    -- The later claim finds the row that the earlier one left, or what became of it.
    obtain rfl := (sound_tablesAfter rt (ts ++ t :: later)).attempts.eq ha' hb
      (hsame.id.trans (haid.trans (hid.symm.trans hbid.symm)))
    omega
  · intro a ha hstored later
    obtain ⟨b, hb, hsame, -, -, hkeep⟩ := (advances_tablesAfter rt ts later).attempts a ha
    obtain ⟨hrows, hdigest⟩ := hkeep hstored
    exact ⟨hrows, b, hb, hsame.id, hdigest⟩
  · exact fun d hd e he heq => eq_of_attemptId rt hsound hd he heq
  · exact fun a ha b hb hsome heq => eq_of_predecessor rt hsound ha hb hsome heq
  · exact fun a ha => depth_le rt hsound ha
  · intro a ha hended later
    obtain ⟨b, hb, -, -, hkeep, -⟩ := (advances_tablesAfter rt ts later).attempts a ha
    rw [hkeep hended] at hb
    exact hb
  · intro d hd e he horg hmission hcurrent hcurrent'
    apply hsound.oneCurrent.eq
    · exact List.mem_filter.mpr ⟨hd, hcurrent⟩
    · exact List.mem_filter.mpr ⟨he, hcurrent'⟩
    · exact Prod.ext horg hmission

end Runs

end SiraWorker
