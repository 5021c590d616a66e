-- SUMMARY: The kernel of qualification: attempts with their snapshots, checkpoints and decisions, the moves that transactions make on them, and what every move preserves.
import SiraSeil.Persistence.QualificationOperations
import Mathlib.Logic.Relation

/-!
# The qualification kernel

The tables of the kernel are those of attempts, of the snapshots and checkpoints of
attempts, and of decisions with the dependencies they record. Whatever a transaction does
to them is a sequence of moves, each on one row. The invariants of the kernel are proved
for each move, and so hold after every transaction.
-/

namespace Persistence

open Domain

structure Kernel where
  attempts : List QualificationAttempt
  dependencies : List AttemptDependency
  checkpoints : List AttemptCheckpoint
  decisions : List QualificationDecision
  decisionDependencies : List DecisionDependency

def QualificationDb.kernel (db : QualificationDb) : Kernel :=
  ⟨db.attempts, db.dependencies, db.checkpoints, db.decisions, db.decisionDependencies⟩

/-- A checkpoint is one of an attempt. -/
def AttemptCheckpoint.isOf (c : AttemptCheckpoint) (a : QualificationAttempt) : Prop :=
  c.organizationId = a.organizationId ∧ c.attemptId = a.id

/-- A decision is one of an attempt. -/
def QualificationDecision.isOf (d : QualificationDecision) (a : QualificationAttempt) : Prop :=
  d.organizationId = a.organizationId ∧ d.attemptId = a.id

/-- The rows are of one attempt, whose origin never changes. -/
structure SameAttempt (a a' : QualificationAttempt) : Prop where
  id : a'.id = a.id
  organization : a'.organizationId = a.organizationId
  mission : a'.missionId = a.missionId
  root : a'.rootAttemptId = a.rootAttemptId
  predecessor : a'.predecessorAttemptId = a.predecessorAttemptId
  depth : a'.replacementDepth = a.replacementDepth

theorem SameAttempt.refl (a : QualificationAttempt) : SameAttempt a a :=
  ⟨rfl, rfl, rfl, rfl, rfl, rfl⟩

theorem SameAttempt.trans {a b c : QualificationAttempt} (h : SameAttempt a b)
    (h' : SameAttempt b c) : SameAttempt a c where
  id := h'.id.trans h.id
  organization := h'.organization.trans h.organization
  mission := h'.mission.trans h.mission
  root := h'.root.trans h.root
  predecessor := h'.predecessor.trans h.predecessor
  depth := h'.depth.trans h.depth

/-- An attempt was never claimed exactly as long as it is queued. -/
def QualificationAttempt.Leased (a : QualificationAttempt) : Prop :=
  (a.state = .queued ∧ a.generation = 0 ∧ a.leaseOwner = none) ∨
    (a.state ≠ .queued ∧ a.generation ≠ 0 ∧ a.leaseOwner.isSome = true ∧
      a.leaseExpiresAt.isSome = true)

/-- The attempt has ended with a decision or a replacement. -/
def QualificationAttempt.Ended (a : QualificationAttempt) : Prop :=
  a.state = .completed ∨ a.state = .stale

namespace Kernel

/-- The stored snapshot of an attempt. -/
def dependenciesOf (k : Kernel) (a : QualificationAttempt) : List AttemptDependency :=
  k.dependencies.filter (fun d => d.organizationId = a.organizationId ∧ d.attemptId = a.id)

/-- What a decision recorded. -/
def recordedBy (k : Kernel) (d : QualificationDecision) : List DecisionDependency :=
  k.decisionDependencies.filter (fun x => x.organizationId = d.organizationId ∧
    x.decisionId = d.id)

/-- Change the row of an attempt. -/
def updateAttempt (k : Kernel) (attemptId : String)
    (f : QualificationAttempt → QualificationAttempt) : Kernel :=
  { k with attempts := Table.update (·.id) attemptId f k.attempts }

/-- No checkpoint holds the attempt at its generation. -/
def Unheld (k : Kernel) (a : QualificationAttempt) : Prop :=
  ∀ c ∈ k.checkpoints, ¬ (c.isOf a ∧ c.generation = a.generation)

/-- An attempt has no snapshot yet, or its digest is that of its stored snapshot and a
    checkpoint holds it at its generation. -/
def Snapshotted (rt : Runtime) (k : Kernel) (a : QualificationAttempt) : Prop :=
  (k.dependenciesOf a = [] ∧ a.inputDigest = none ∧ a.state ∈ [.queued, .running]) ∨
    (k.dependenciesOf a ≠ [] ∧ a.state ∈ [.snapshotComplete, .stale, .completed] ∧
      (∃ digest, snapshotDigest rt ((k.dependenciesOf a).map (·.snapshot)) = .ok digest ∧
        a.inputDigest = some digest) ∧ ¬ k.Unheld a)

/-- An attempt is the first of its mission, or it replaces one. -/
def Descends (k : Kernel) (a : QualificationAttempt) : Prop :=
  (a.predecessorAttemptId = none ∧ a.replacementDepth = 0) ∨
    ∃ p ∈ k.attempts, p.organizationId = a.organizationId ∧ p.missionId = a.missionId ∧
      a.predecessorAttemptId = some p.id ∧ a.replacementDepth = p.replacementDepth + 1 ∧
      p.replacementDepth < 3

/-- What every transaction preserves. -/
structure Sound (rt : Runtime) (k : Kernel) : Prop where
  attempts : Table.Keyed (·.id) k.attempts
  leased : ∀ a ∈ k.attempts, a.Leased
  snapshotted : ∀ a ∈ k.attempts, k.Snapshotted rt a
  descends : ∀ a ∈ k.attempts, k.Descends a
  successors : Table.Keyed (fun a => (a.organizationId, a.predecessorAttemptId))
    (k.attempts.filter (·.predecessorAttemptId.isSome))
  held : ∀ c ∈ k.checkpoints, ∃ a ∈ k.attempts, c.isOf a ∧ c.generation = a.generation ∧
    a.state ≠ .queued
  stored : ∀ d ∈ k.dependencies, ∃ a ∈ k.attempts, d.organizationId = a.organizationId ∧
    d.attemptId = a.id
  decisions : Table.Keyed (·.id) k.decisions
  decided : ∀ d ∈ k.decisions, ∃ a ∈ k.attempts, d.isOf a ∧ d.missionId = a.missionId ∧
    a.state = .completed ∧ a.inputDigest = some d.inputDigest ∧
    (k.recordedBy d).map (·.snapshot) = (k.dependenciesOf a).map (·.snapshot)
  recorded : ∀ x ∈ k.decisionDependencies, ∃ d ∈ k.decisions,
    x.organizationId = d.organizationId ∧ x.decisionId = d.id
  oneDecision : Table.Keyed (fun d => (d.organizationId, d.attemptId)) k.decisions
  oneCurrent : Table.Keyed (fun d => (d.organizationId, d.missionId))
    (k.decisions.filter (·.current))

/-- One change of a transaction to the kernel. -/
inductive Move (rt : Runtime) : Kernel → Kernel → Prop
  /-- An attempt is added. -/
  | begins {k : Kernel} {a : QualificationAttempt} (hid : ∀ b ∈ k.attempts, b.id ≠ a.id)
      (hstate : a.state = .queued) (hgeneration : a.generation = 0) (howner : a.leaseOwner = none)
      (hdigest : a.inputDigest = none) (hdescends : k.Descends a)
      (hsuccessor : ∀ b ∈ k.attempts, b.organizationId = a.organizationId →
        a.predecessorAttemptId.isSome = true →
        b.predecessorAttemptId ≠ a.predecessorAttemptId) :
      Move rt k { k with attempts := k.attempts ++ [a] }
  | claims {k : Kernel} {a : QualificationAttempt} {leaseOwner : String} {leaseExpiresAt : Int}
      (ha : a ∈ k.attempts) (hstate : a.state.claimable = true) (hfree : k.Unheld a) :
      Move rt k (k.updateAttempt a.id (·.claimed leaseOwner leaseExpiresAt))
  | checkpoints {k : Kernel} {a : QualificationAttempt} {c : AttemptCheckpoint}
      (ha : a ∈ k.attempts) (hstate : a.state ∈ [.running, .snapshotComplete]) (hof : c.isOf a)
      (hgeneration : c.generation = a.generation) :
      Move rt k { k with checkpoints := k.checkpoints ++ [c] }
  /-- The snapshot of an attempt is stored at the generation that its checkpoint holds. -/
  | snapshots {k : Kernel} {a : QualificationAttempt} {ds : List DependencySnapshot}
      {digest : String} (ha : a ∈ k.attempts) (hstate : a.state ∈ [.running, .snapshotComplete])
      (hnone : k.dependenciesOf a = []) (hne : ds ≠ []) (hdigest : snapshotDigest rt ds = .ok digest)
      (hheld : ¬ k.Unheld a) :
      Move rt k (Kernel.updateAttempt
        { k with dependencies := k.dependencies ++ dependencyRows a.organizationId a.id ds } a.id
        (·.snapshotted digest))
  | stales {k : Kernel} {a : QualificationAttempt} {changed : List String} (ha : a ∈ k.attempts)
      (hstate : a.state = .snapshotComplete) :
      Move rt k (k.updateAttempt a.id (·.staled changed))
  | completes {k : Kernel} {a : QualificationAttempt} (ha : a ∈ k.attempts)
      (hstate : a.state = .snapshotComplete) :
      Move rt k (k.updateAttempt a.id (·.concluded))
  /-- A decision records the snapshot of its completed attempt. -/
  | decides {k : Kernel} {a : QualificationAttempt} {d : QualificationDecision}
      {cited : List String} (ha : a ∈ k.attempts) (hstate : a.state = .completed) (hof : d.isOf a)
      (hmission : d.missionId = a.missionId) (hdigest : a.inputDigest = some d.inputDigest)
      (hid : ∀ e ∈ k.decisions, e.id ≠ d.id)
      (hattempt : ∀ e ∈ k.decisions, ¬ (e.organizationId = d.organizationId ∧
        e.attemptId = d.attemptId))
      (hcurrent : ∀ e ∈ k.decisions, ¬ (e.organizationId = d.organizationId ∧
        e.missionId = d.missionId ∧ e.current = true)) :
      Move rt k { k with
        decisions := k.decisions ++ [d]
        decisionDependencies := k.decisionDependencies ++
          decisionRows d.organizationId d.id cited (k.dependenciesOf a) }
  /-- The approval of a decision changes, and it may stop being current. -/
  | marks {k : Kernel} {decisionId : String} {f : QualificationDecision → QualificationDecision}
      (hkeep : ∀ d, f d = { d with approvalState := (f d).approvalState, current := (f d).current })
      (hcurrent : ∀ d, (f d).current = true → d.current = true) :
      Move rt k { k with decisions := Table.update (·.id) decisionId f k.decisions }

/-! ## Changing one attempt -/

section Update

variable {rt : Runtime} {k : Kernel} {a b : QualificationAttempt}
  {f : QualificationAttempt → QualificationAttempt}

theorem mem_updateAttempt (hkeyed : Table.Keyed (·.id) k.attempts) (ha : a ∈ k.attempts) :
    b ∈ (k.updateAttempt a.id f).attempts ↔ b = f a ∨ (b ∈ k.attempts ∧ b.id ≠ a.id) := by
  unfold updateAttempt
  rw [Table.mem_update]
  constructor
  · rintro (⟨c, hc, hid, rfl⟩ | hb)
    · rw [hkeyed.eq hc ha hid]
      exact .inl rfl
    · exact .inr hb
  · rintro (rfl | hb)
    · exact .inl ⟨a, ha, rfl, rfl⟩
    · exact .inr hb

theorem exists_mem_updateAttempt (hkeyed : Table.Keyed (·.id) k.attempts) (ha : a ∈ k.attempts)
    (hkeep : SameAttempt a (f a)) (hb : b ∈ k.attempts) :
    ∃ b' ∈ (k.updateAttempt a.id f).attempts, SameAttempt b b' ∧
      ((b = a ∧ b' = f a) ∨ (b.id ≠ a.id ∧ b' = b)) := by
  by_cases hid : b.id = a.id
  · obtain rfl := hkeyed.eq hb ha hid
    exact ⟨f b, (mem_updateAttempt hkeyed hb).mpr (.inl rfl), hkeep, .inl ⟨rfl, rfl⟩⟩
  · exact ⟨b, (mem_updateAttempt hkeyed ha).mpr (.inr ⟨hb, hid⟩), SameAttempt.refl b,
      .inr ⟨hid, rfl⟩⟩

theorem dependenciesOf_congr (h : SameAttempt a b) : k.dependenciesOf b = k.dependenciesOf a := by
  unfold dependenciesOf
  rw [h.id, h.organization]

theorem Descends.mono {k' : Kernel} (h : k.Descends a) (hsame : SameAttempt a b)
    (hattempts : ∀ p ∈ k.attempts, ∃ p' ∈ k'.attempts, SameAttempt p p') : k'.Descends b := by
  rcases h with ⟨hnone, hdepth⟩ | ⟨p, hp, horg, hmission, hpredecessor, hdepth, hlow⟩
  · exact .inl ⟨hsame.predecessor.trans hnone, hsame.depth.trans hdepth⟩
  · obtain ⟨p', hp', hsame'⟩ := hattempts p hp
    refine .inr ⟨p', hp', ?_, ?_, ?_, ?_, ?_⟩
    · rw [hsame'.organization, horg, hsame.organization]
    · rw [hsame'.mission, hmission, hsame.mission]
    · rw [hsame.predecessor, hpredecessor, hsame'.id]
    · rw [hsame.depth, hdepth, hsame'.depth]
    · rw [hsame'.depth]
      exact hlow

theorem dependenciesOf_append_of_ne {rows : List AttemptDependency}
    (hrows : ∀ d ∈ rows, d.attemptId = a.id) (hid : b.id ≠ a.id) :
    Kernel.dependenciesOf { k with dependencies := k.dependencies ++ rows } b =
      k.dependenciesOf b := by
  unfold dependenciesOf
  have hnone : rows.filter (fun d => d.organizationId = b.organizationId ∧ d.attemptId = b.id) =
      [] := by
    refine List.filter_eq_nil_iff.mpr (fun d hd hkeys => ?_)
    simp only [decide_eq_true_eq] at hkeys
    exact hid (hkeys.2.symm.trans (hrows d hd))
  rw [List.filter_append, hnone, List.append_nil]

/-- A change of an attempt without a decision, which may store dependencies of it, keeps the
    kernel sound, if the new row fits its lease, its checkpoints and its snapshot. -/
theorem Sound.update {rows : List AttemptDependency} (h : k.Sound rt) (ha : a ∈ k.attempts)
    (hkeep : ∀ b, SameAttempt b (f b)) (hopen : a.state ≠ .completed)
    (hrows : ∀ d ∈ rows, d.organizationId = a.organizationId ∧ d.attemptId = a.id)
    (hleased : (f a).Leased) (hstate : (f a).state ≠ .queued)
    (hheld : (f a).generation = a.generation ∨ k.Unheld a)
    (hsnapshotted : Kernel.Snapshotted rt { k with dependencies := k.dependencies ++ rows } (f a)) :
    Sound rt (Kernel.updateAttempt
      { k with dependencies := k.dependencies ++ rows } a.id f) := by
  have hmem : ∀ b, b ∈ (k.updateAttempt a.id f).attempts ↔
      b = f a ∨ (b ∈ k.attempts ∧ b.id ≠ a.id) := fun b => mem_updateAttempt h.attempts ha
  have hexists := fun b (hb : b ∈ k.attempts) =>
    exists_mem_updateAttempt (f := f) h.attempts ha (hkeep a) hb
  have hother : ∀ b, b.id ≠ a.id → Kernel.dependenciesOf
      { k with dependencies := k.dependencies ++ rows } b = k.dependenciesOf b :=
    fun b hid => dependenciesOf_append_of_ne (fun d hd => (hrows d hd).2) hid
  constructor
  · exact h.attempts.update (fun r => (hkeep r).id)
  · intro b hb
    rcases (hmem b).mp hb with rfl | ⟨hb, -⟩
    · exact hleased
    · exact h.leased b hb
  · intro b hb
    rcases (hmem b).mp hb with rfl | ⟨hb, hid⟩
    · exact hsnapshotted
    · have hbefore := h.snapshotted b hb
      unfold Snapshotted at hbefore ⊢
      rw [← hother b hid] at hbefore
      exact hbefore
  · intro b hb
    have hattempts : ∀ p ∈ k.attempts, ∃ p' ∈ (k.updateAttempt a.id f).attempts,
        SameAttempt p p' := by
      intro p hp
      obtain ⟨p', hp', hsame, -⟩ := hexists p hp
      exact ⟨p', hp', hsame⟩
    rcases (hmem b).mp hb with rfl | ⟨hb, -⟩
    · exact (h.descends a ha).mono (hkeep a) hattempts
    · exact (h.descends b hb).mono (SameAttempt.refl b) hattempts
  · unfold updateAttempt
    rw [Table.filter_update (fun r => by rw [(hkeep r).predecessor])]
    exact h.successors.update (fun r => by rw [(hkeep r).organization, (hkeep r).predecessor])
  · intro c hc
    obtain ⟨b, hb, hof, hgeneration, hqueued⟩ := h.held c hc
    obtain ⟨b', hb', hsame, ⟨rfl, rfl⟩ | ⟨-, rfl⟩⟩ := hexists b hb
    · refine ⟨f b, hb', ⟨hof.1.trans hsame.organization.symm, hof.2.trans hsame.id.symm⟩, ?_,
        hstate⟩
      rcases hheld with hheld | hfree
      · rw [hgeneration, hheld]
      · exact absurd ⟨hof, hgeneration⟩ (hfree c hc)
    · exact ⟨b', hb', hof, hgeneration, hqueued⟩
  · intro d hd
    have howner : ∃ b ∈ k.attempts, d.organizationId = b.organizationId ∧ d.attemptId = b.id := by
      rcases List.mem_append.mp hd with hd | hd
      · exact h.stored d hd
      · exact ⟨a, ha, hrows d hd⟩
    obtain ⟨b, hb, horg, hid⟩ := howner
    obtain ⟨b', hb', hsame, -⟩ := hexists b hb
    exact ⟨b', hb', horg.trans hsame.organization.symm, hid.trans hsame.id.symm⟩
  · exact h.decisions
  · intro d hd
    obtain ⟨b, hb, hof, hmission, hcompleted, hdigest, hrecorded⟩ := h.decided d hd
    obtain ⟨b', hb', hsame, ⟨rfl, rfl⟩ | ⟨hid, rfl⟩⟩ := hexists b hb
    · exact absurd hcompleted hopen
    · refine ⟨b', hb', hof, hmission, hcompleted, hdigest, ?_⟩
      show (k.recordedBy d).map (·.snapshot) = (Kernel.dependenciesOf
        { k with dependencies := k.dependencies ++ rows } b').map (·.snapshot)
      rw [hother b' hid]
      exact hrecorded
  · exact h.recorded
  · exact h.oneDecision
  · exact h.oneCurrent

end Update

/-! ## What every move preserves -/

section Moves

variable {rt : Runtime} {k k' : Kernel} {a : QualificationAttempt}

theorem Snapshotted.of_same {b : QualificationAttempt} (h : k.Snapshotted rt a)
    (hsame : SameAttempt a b) (hdigest : b.inputDigest = a.inputDigest)
    (hgeneration : b.generation = a.generation)
    (hstate : a.state ∈ [.snapshotComplete, .stale, .completed] →
      b.state ∈ [.snapshotComplete, .stale, .completed])
    (hnone : a.state ∈ [.queued, .running] → b.state ∈ [.queued, .running]) :
    k.Snapshotted rt b := by
  unfold Snapshotted Unheld AttemptCheckpoint.isOf
  rw [dependenciesOf_congr hsame, hdigest, hsame.organization, hsame.id, hgeneration]
  rcases h with ⟨hds, hd, hs⟩ | ⟨hds, hs, hd, hheld⟩
  · exact .inl ⟨hds, hd, hnone hs⟩
  · exact .inr ⟨hds, hstate hs, hd, hheld⟩

theorem Sound.begins (h : k.Sound rt) (hid : ∀ b ∈ k.attempts, b.id ≠ a.id)
    (hstate : a.state = .queued) (hgeneration : a.generation = 0) (howner : a.leaseOwner = none)
    (hdigest : a.inputDigest = none) (hdescends : k.Descends a)
    (hsuccessor : ∀ b ∈ k.attempts, b.organizationId = a.organizationId →
      a.predecessorAttemptId.isSome = true → b.predecessorAttemptId ≠ a.predecessorAttemptId) :
    Sound rt { k with attempts := k.attempts ++ [a] } := by
  have hsame : ∀ p ∈ k.attempts, ∃ p' ∈ k.attempts ++ [a], SameAttempt p p' :=
    fun p hp => ⟨p, List.mem_append_left _ hp, SameAttempt.refl p⟩
  have hnew : ∀ b ∈ k.attempts ++ [a], b ∈ k.attempts ∨ b = a := by
    intro b hb
    rcases List.mem_append.mp hb with hb | hb
    · exact .inl hb
    · exact .inr (List.mem_singleton.mp hb)
  -- The new attempt has no rows yet, since every row belongs to an attempt.
  have hnone : k.dependenciesOf a = [] := by
    refine List.filter_eq_nil_iff.mpr (fun d hd hkeys => ?_)
    obtain ⟨b, hb, -, hbid⟩ := h.stored d hd
    simp only [decide_eq_true_eq] at hkeys
    exact hid b hb (hbid.symm.trans hkeys.2)
  constructor
  · exact h.attempts.append hid
  · intro b hb
    rcases hnew b hb with hb | rfl
    · exact h.leased b hb
    · exact .inl ⟨hstate, hgeneration, howner⟩
  · intro b hb
    rcases hnew b hb with hb | rfl
    · exact h.snapshotted b hb
    · exact .inl ⟨hnone, hdigest, by simp [hstate]⟩
  · intro b hb
    rcases hnew b hb with hb | rfl
    · exact (h.descends b hb).mono (SameAttempt.refl b) hsame
    · exact hdescends.mono (SameAttempt.refl b) hsame
  · show Table.Keyed _ ((k.attempts ++ [a]).filter _)
    rw [List.filter_append]
    cases hpredecessor : a.predecessorAttemptId with
    | none =>
      rw [List.filter_cons_of_neg (by simp [hpredecessor]), List.filter_nil, List.append_nil]
      exact h.successors
    | some p =>
      rw [List.filter_cons_of_pos (by simp [hpredecessor]), List.filter_nil]
      refine h.successors.append (fun b hb hkey => ?_)
      obtain ⟨horg, hsame⟩ := Prod.mk.inj hkey
      exact hsuccessor b (List.mem_filter.mp hb).1 horg (by simp [hpredecessor]) hsame
  · intro c hc
    obtain ⟨b, hb, hof⟩ := h.held c hc
    exact ⟨b, List.mem_append_left _ hb, hof⟩
  · intro d hd
    obtain ⟨b, hb, hof⟩ := h.stored d hd
    exact ⟨b, List.mem_append_left _ hb, hof⟩
  · exact h.decisions
  · intro d hd
    obtain ⟨b, hb, hof⟩ := h.decided d hd
    exact ⟨b, List.mem_append_left _ hb, hof⟩
  · exact h.recorded
  · exact h.oneDecision
  · exact h.oneCurrent

theorem Sound.checkpoints {c : AttemptCheckpoint} (h : k.Sound rt) (ha : a ∈ k.attempts)
    (hstate : a.state ∈ [.running, .snapshotComplete]) (hof : c.isOf a)
    (hgeneration : c.generation = a.generation) :
    Sound rt { k with checkpoints := k.checkpoints ++ [c] } := by
  have hqueued : a.state ≠ .queued := by
    intro hqueued
    simp [hqueued] at hstate
  constructor
  · exact h.attempts
  · exact h.leased
  · intro b hb
    rcases h.snapshotted b hb with hnone | ⟨hds, hs, hd, hheld⟩
    · exact .inl hnone
    · exact .inr ⟨hds, hs, hd, fun hfree => hheld (fun e he => hfree e
        (List.mem_append_left _ he))⟩
  · exact h.descends
  · exact h.successors
  · intro e he
    rcases List.mem_append.mp he with he | he
    · exact h.held e he
    · rw [List.mem_singleton.mp he]
      exact ⟨a, ha, hof, hgeneration, hqueued⟩
  · exact h.stored
  · exact h.decisions
  · exact h.decided
  · exact h.recorded
  · exact h.oneDecision
  · exact h.oneCurrent

theorem dependencyRows_snapshot (organizationId attemptId : String)
    (ds : List DependencySnapshot) :
    (dependencyRows organizationId attemptId ds).map (·.snapshot) = ds := by
  unfold dependencyRows
  rw [List.map_map]
  exact List.map_id' ds

theorem dependenciesOf_snapshots {ds : List DependencySnapshot}
    (hnone : k.dependenciesOf a = []) :
    Kernel.dependenciesOf
        { k with dependencies := k.dependencies ++ dependencyRows a.organizationId a.id ds } a =
      dependencyRows a.organizationId a.id ds := by
  unfold Kernel.dependenciesOf at hnone ⊢
  rw [List.filter_append, hnone, List.nil_append, List.filter_eq_self]
  intro d hd
  obtain ⟨x, -, rfl⟩ := List.mem_map.mp hd
  simp

theorem Sound.snapshots {ds : List DependencySnapshot} {digest : String} (h : k.Sound rt)
    (ha : a ∈ k.attempts) (hstate : a.state ∈ [.running, .snapshotComplete])
    (hnone : k.dependenciesOf a = []) (hne : ds ≠ []) (hdigest : snapshotDigest rt ds = .ok digest)
    (hheld : ¬ k.Unheld a) :
    Sound rt (Kernel.updateAttempt
      { k with dependencies := k.dependencies ++ dependencyRows a.organizationId a.id ds } a.id
      (·.snapshotted digest)) := by
  have hopen : a.state ≠ .completed := by
    intro hcompleted
    simp [hcompleted] at hstate
  have hrows : ∀ d ∈ dependencyRows a.organizationId a.id ds,
      d.organizationId = a.organizationId ∧ d.attemptId = a.id := by
    intro d hd
    obtain ⟨x, -, rfl⟩ := List.mem_map.mp hd
    exact ⟨rfl, rfl⟩
  have hleased : (a.snapshotted digest).Leased := by
    rcases h.leased a ha with ⟨hqueued, -⟩ | ⟨-, hgeneration, hlease⟩
    · simp [hqueued] at hstate
    · exact .inr ⟨by simp [QualificationAttempt.snapshotted], hgeneration, hlease⟩
  apply h.update (f := (·.snapshotted digest)) ha
    (fun b => ⟨rfl, rfl, rfl, rfl, rfl, rfl⟩) hopen hrows hleased
    (by simp [QualificationAttempt.snapshotted]) (.inl rfl)
  have hown : Kernel.dependenciesOf _ a = dependencyRows a.organizationId a.id ds :=
    dependenciesOf_snapshots hnone
  refine .inr ⟨?_, by simp [QualificationAttempt.snapshotted], ⟨digest, ?_, rfl⟩, hheld⟩
  · show Kernel.dependenciesOf _ a ≠ []
    rw [hown]
    simpa [dependencyRows] using hne
  · show snapshotDigest rt ((Kernel.dependenciesOf _ a).map _) = _
    rw [hown, dependencyRows_snapshot]
    exact hdigest

theorem Sound.turn {f : QualificationAttempt → QualificationAttempt} (h : k.Sound rt)
    (ha : a ∈ k.attempts) (hkeep : ∀ b, SameAttempt b (f b)) (hopen : a.state ≠ .completed)
    (hleased : (f a).Leased) (hstate : (f a).state ≠ .queued)
    (hheld : (f a).generation = a.generation ∨ k.Unheld a) (hsnapshotted : k.Snapshotted rt (f a)) :
    Sound rt (k.updateAttempt a.id f) := by
  have hnil : { k with dependencies := k.dependencies ++ [] } = k := by
    rw [List.append_nil]
  have hupdate := @Sound.update _ _ _ f [] h ha hkeep hopen (by simp) hleased hstate hheld
  rw [hnil] at hupdate
  exact hupdate hsnapshotted

theorem Sound.claims {leaseOwner : String} {leaseExpiresAt : Int} (h : k.Sound rt)
    (ha : a ∈ k.attempts) (hstate : a.state.claimable = true) (hfree : k.Unheld a) :
    Sound rt (k.updateAttempt a.id (·.claimed leaseOwner leaseExpiresAt)) := by
  have hopen : a.state ≠ .completed := by
    intro hcompleted
    simp [AttemptState.claimable, hcompleted] at hstate
  have hleased : (a.claimed leaseOwner leaseExpiresAt).Leased :=
    .inr ⟨by simp [QualificationAttempt.claimed], by simp [QualificationAttempt.claimed], rfl, rfl⟩
  apply h.turn (f := (·.claimed leaseOwner leaseExpiresAt)) ha
    (fun b => ⟨rfl, rfl, rfl, rfl, rfl, rfl⟩) hopen hleased
    (by simp [QualificationAttempt.claimed]) (.inr hfree)
  -- A checkpoint holds every attempt that has a snapshot.
  rcases h.snapshotted a ha with ⟨hnone, hdigest, -⟩ | ⟨-, -, -, hheld⟩
  · exact .inl ⟨hnone, hdigest, by simp [QualificationAttempt.claimed]⟩
  · exact absurd hfree hheld

theorem Sound.ends {f : QualificationAttempt → QualificationAttempt} (h : k.Sound rt)
    (ha : a ∈ k.attempts) (hstate : a.state = .snapshotComplete)
    (hkeep : ∀ b, SameAttempt b (f b)) (hended : (f a).Ended)
    (hgeneration : (f a).generation = a.generation) (howner : (f a).leaseOwner = a.leaseOwner)
    (hexpires : (f a).leaseExpiresAt = a.leaseExpiresAt)
    (hdigest : (f a).inputDigest = a.inputDigest) : Sound rt (k.updateAttempt a.id f) := by
  have hqueued : (f a).state ≠ .queued := by
    rcases hended with hended | hended
    · simp [hended]
    · simp [hended]
  have hleased : (f a).Leased := by
    rcases h.leased a ha with ⟨hnew, -⟩ | ⟨-, hlease⟩
    · simp [hstate] at hnew
    · unfold QualificationAttempt.Leased
      rw [hgeneration, howner, hexpires]
      exact .inr ⟨hqueued, hlease⟩
  apply h.turn ha hkeep (by simp [hstate]) hleased hqueued (.inl hgeneration)
  apply (h.snapshotted a ha).of_same (hkeep a) hdigest hgeneration
  · intro _
    rcases hended with hended | hended
    · simp [hended]
    · simp [hended]
  · intro hopen
    simp [hstate] at hopen

theorem decisionRows_snapshot (organizationId decisionId : String) (cited : List String)
    (rows : List AttemptDependency) :
    (decisionRows organizationId decisionId cited rows).map (·.snapshot) =
      rows.map (·.snapshot) := by
  unfold decisionRows
  rw [List.map_map]
  rfl

theorem Sound.decides {d : QualificationDecision} {cited : List String} (h : k.Sound rt)
    (ha : a ∈ k.attempts) (hstate : a.state = .completed) (hof : d.isOf a)
    (hmission : d.missionId = a.missionId) (hdigest : a.inputDigest = some d.inputDigest)
    (hid : ∀ e ∈ k.decisions, e.id ≠ d.id)
    (hattempt : ∀ e ∈ k.decisions, ¬ (e.organizationId = d.organizationId ∧
      e.attemptId = d.attemptId))
    (hcurrent : ∀ e ∈ k.decisions, ¬ (e.organizationId = d.organizationId ∧
      e.missionId = d.missionId ∧ e.current = true)) :
    Sound rt { k with
      decisions := k.decisions ++ [d]
      decisionDependencies := k.decisionDependencies ++
        decisionRows d.organizationId d.id cited (k.dependenciesOf a) } := by
  -- What is recorded under a decision is recorded with it.
  have hrows : ∀ e, e.id ≠ d.id → Kernel.recordedBy { k with
      decisionDependencies := k.decisionDependencies ++
        decisionRows d.organizationId d.id cited (k.dependenciesOf a) } e = k.recordedBy e := by
    intro e he
    have hnone : (decisionRows d.organizationId d.id cited (k.dependenciesOf a)).filter (fun x =>
        x.organizationId = e.organizationId ∧ x.decisionId = e.id) = [] := by
      refine List.filter_eq_nil_iff.mpr (fun x hx hkeys => ?_)
      obtain ⟨y, -, rfl⟩ := List.mem_map.mp hx
      simp only [decide_eq_true_eq] at hkeys
      exact he hkeys.2.symm
    unfold recordedBy
    rw [List.filter_append, hnone, List.append_nil]
  have hown : Kernel.recordedBy { k with
      decisionDependencies := k.decisionDependencies ++
        decisionRows d.organizationId d.id cited (k.dependenciesOf a) } d =
      decisionRows d.organizationId d.id cited (k.dependenciesOf a) := by
    have hnone : k.recordedBy d = [] := by
      refine List.filter_eq_nil_iff.mpr (fun x hx hkeys => ?_)
      obtain ⟨e, he, -, heid⟩ := h.recorded x hx
      simp only [decide_eq_true_eq] at hkeys
      exact hid e he (heid.symm.trans hkeys.2)
    unfold recordedBy at hnone ⊢
    rw [List.filter_append, hnone, List.nil_append, List.filter_eq_self]
    intro x hx
    obtain ⟨y, -, rfl⟩ := List.mem_map.mp hx
    simp
  constructor
  · exact h.attempts
  · exact h.leased
  · exact h.snapshotted
  · exact h.descends
  · exact h.successors
  · exact h.held
  · exact h.stored
  · exact h.decisions.append hid
  · intro e he
    rcases List.mem_append.mp he with he | he
    · obtain ⟨b, hb, heof, hemission, hcompleted, hedigest, hrecorded⟩ := h.decided e he
      refine ⟨b, hb, heof, hemission, hcompleted, hedigest, ?_⟩
      rw [← hrows e (hid e he)] at hrecorded
      exact hrecorded
    · obtain rfl := List.mem_singleton.mp he
      refine ⟨a, ha, hof, hmission, hstate, hdigest, ?_⟩
      show (Kernel.recordedBy { k with
          decisionDependencies := k.decisionDependencies ++
            decisionRows e.organizationId e.id cited (k.dependenciesOf a) } e).map (·.snapshot) = _
      rw [hown, decisionRows_snapshot]
      rfl
  · intro x hx
    rcases List.mem_append.mp hx with hx | hx
    · obtain ⟨e, he, horg, hxid⟩ := h.recorded x hx
      exact ⟨e, List.mem_append_left _ he, horg, hxid⟩
    · obtain ⟨y, -, rfl⟩ := List.mem_map.mp hx
      exact ⟨d, List.mem_append_right _ (List.mem_singleton_self d), rfl, rfl⟩
  · exact h.oneDecision.append (fun e he hkey =>
      hattempt e he ⟨(Prod.mk.inj hkey).1, (Prod.mk.inj hkey).2⟩)
  · show Table.Keyed _ ((k.decisions ++ [d]).filter _)
    rw [List.filter_append]
    cases hcur : d.current with
    | false =>
      rw [List.filter_cons_of_neg (by simp [hcur]), List.filter_nil, List.append_nil]
      exact h.oneCurrent
    | true =>
      rw [List.filter_cons_of_pos (by simp [hcur]), List.filter_nil]
      refine h.oneCurrent.append (fun e he hkey => ?_)
      obtain ⟨hmem, hecurrent⟩ := List.mem_filter.mp he
      exact hcurrent e hmem ⟨(Prod.mk.inj hkey).1, (Prod.mk.inj hkey).2, hecurrent⟩

/-- What can change of a decision. -/
structure SameDecision (d d' : QualificationDecision) : Prop where
  eq : d' = { d with approvalState := d'.approvalState, current := d'.current }
  current : d'.current = true → d.current = true

theorem SameDecision.refl (d : QualificationDecision) : SameDecision d d :=
  ⟨rfl, id⟩

theorem SameDecision.trans {d e g : QualificationDecision} (h : SameDecision d e)
    (h' : SameDecision e g) : SameDecision d g where
  eq := by
    rw [h'.eq, h.eq]
  current := fun hcurrent => h.current (h'.current hcurrent)

theorem Sound.marks {decisionId : String} {f : QualificationDecision → QualificationDecision}
    (h : k.Sound rt)
    (hkeep : ∀ d, f d = { d with approvalState := (f d).approvalState, current := (f d).current })
    (hcurrent : ∀ d, (f d).current = true → d.current = true) :
    Sound rt { k with decisions := Table.update (·.id) decisionId f k.decisions } := by
  have hid : ∀ d, (f d).id = d.id := fun d => by rw [hkeep d]
  have horg : ∀ d, (f d).organizationId = d.organizationId := fun d => by rw [hkeep d]
  have hmission : ∀ d, (f d).missionId = d.missionId := fun d => by rw [hkeep d]
  have hattempt : ∀ d, (f d).attemptId = d.attemptId := fun d => by rw [hkeep d]
  have hdigest : ∀ d, (f d).inputDigest = d.inputDigest := fun d => by rw [hkeep d]
  have hsame : ∀ d ∈ Table.update (·.id) decisionId f k.decisions,
      ∃ e ∈ k.decisions, d = e ∨ d = f e := by
    intro d hd
    rcases Table.mem_update.mp hd with ⟨e, he, -, rfl⟩ | ⟨hd, -⟩
    · exact ⟨e, he, .inr rfl⟩
    · exact ⟨d, hd, .inl rfl⟩
  constructor
  · exact h.attempts
  · exact h.leased
  · exact h.snapshotted
  · exact h.descends
  · exact h.successors
  · exact h.held
  · exact h.stored
  · exact h.decisions.update hid
  · intro d hd
    obtain ⟨e, he, heq⟩ := hsame d hd
    obtain ⟨b, hb, hof, hemission, hcompleted, hedigest, hrecorded⟩ := h.decided e he
    rcases heq with rfl | rfl
    · exact ⟨b, hb, hof, hemission, hcompleted, hedigest, hrecorded⟩
    · refine ⟨b, hb, ⟨(horg e).trans hof.1, (hattempt e).trans hof.2⟩, (hmission e).trans hemission,
        hcompleted, hedigest.trans (congrArg some (hdigest e).symm), ?_⟩
      unfold recordedBy at hrecorded ⊢
      rw [hid, horg]
      exact hrecorded
  · intro x hx
    obtain ⟨e, he, hxorg, hxid⟩ := h.recorded x hx
    by_cases hkey : e.id = decisionId
    · exact ⟨f e, Table.mem_update.mpr (.inl ⟨e, he, hkey, rfl⟩), hxorg.trans (horg e).symm,
        hxid.trans (hid e).symm⟩
    · exact ⟨e, Table.mem_update.mpr (.inr ⟨he, hkey⟩), hxorg, hxid⟩
  · exact h.oneDecision.update (fun d => by rw [horg, hattempt])
  · exact h.oneCurrent.filter_update (fun d => by rw [horg, hmission]) hcurrent

theorem Sound.step (h : k.Sound rt) (hmove : Move rt k k') : k'.Sound rt := by
  cases hmove with
  | begins hid hstate hgeneration howner hdigest hdescends hsuccessor =>
    exact h.begins hid hstate hgeneration howner hdigest hdescends hsuccessor
  | claims ha hstate hfree => exact h.claims ha hstate hfree
  | checkpoints ha hstate hof hgeneration => exact h.checkpoints ha hstate hof hgeneration
  | snapshots ha hstate hnone hne hdigest hheld =>
    exact h.snapshots ha hstate hnone hne hdigest hheld
  | stales ha hstate =>
    exact h.ends ha hstate (fun b => ⟨rfl, rfl, rfl, rfl, rfl, rfl⟩) (.inr rfl) rfl rfl rfl rfl
  | completes ha hstate =>
    exact h.ends ha hstate (fun b => ⟨rfl, rfl, rfl, rfl, rfl, rfl⟩) (.inl rfl) rfl rfl rfl rfl
  | decides ha hstate hof hmission hdigest hid hattempt hcurrent =>
    exact h.decides ha hstate hof hmission hdigest hid hattempt hcurrent
  | marks hkeep hcurrent => exact h.marks hkeep hcurrent

/-! ## What no move takes back -/

/-- Generations only grow, an attempt that has ended keeps its row, a stored snapshot stays with
    its digest, and a decision keeps all but its approval. -/
structure Advances (k k' : Kernel) : Prop where
  attempts : ∀ a ∈ k.attempts, ∃ a' ∈ k'.attempts, SameAttempt a a' ∧
    a.generation ≤ a'.generation ∧ (a.Ended → a' = a) ∧
    (k.dependenciesOf a ≠ [] → k'.dependenciesOf a = k.dependenciesOf a ∧
      a'.inputDigest = a.inputDigest)
  decisions : ∀ d ∈ k.decisions, ∃ d' ∈ k'.decisions, SameDecision d d'

theorem Advances.refl (k : Kernel) : Advances k k where
  attempts := fun a ha => ⟨a, ha, SameAttempt.refl a, le_rfl, fun _ => rfl, fun _ => ⟨rfl, rfl⟩⟩
  decisions := fun d hd => ⟨d, hd, SameDecision.refl d⟩

theorem Advances.trans {k'' : Kernel} (h : Advances k k') (h' : Advances k' k'') :
    Advances k k'' := by
  constructor
  · intro a ha
    obtain ⟨b, hb, hsame, hle, hended, hstored⟩ := h.attempts a ha
    obtain ⟨c, hc, hsame', hle', hended', hstored'⟩ := h'.attempts b hb
    refine ⟨c, hc, hsame.trans hsame', hle.trans hle', ?_, ?_⟩
    · intro ha
      obtain rfl := hended ha
      exact hended' ha
    · intro hne
      obtain ⟨hrows, hdigest⟩ := hstored hne
      rw [dependenciesOf_congr hsame, dependenciesOf_congr hsame] at hstored'
      obtain ⟨hrows', hdigest'⟩ := hstored' (by rw [hrows]; exact hne)
      exact ⟨hrows'.trans hrows, hdigest'.trans hdigest⟩
  · intro d hd
    obtain ⟨e, he, hsame⟩ := h.decisions d hd
    obtain ⟨g, hg, hsame'⟩ := h'.decisions e he
    exact ⟨g, hg, hsame.trans hsame'⟩

theorem Advances.of_subset (hattempts : k.attempts ⊆ k'.attempts)
    (hdependencies : k'.dependencies = k.dependencies)
    (hdecisions : ∀ d ∈ k.decisions, ∃ d' ∈ k'.decisions, SameDecision d d') : Advances k k' := by
  refine ⟨fun a ha => ⟨a, hattempts ha, SameAttempt.refl a, le_rfl, fun _ => rfl, fun _ => ⟨?_, rfl⟩⟩,
    hdecisions⟩
  unfold dependenciesOf
  rw [hdependencies]

theorem sameDecisions_of_subset (hsub : k.decisions ⊆ k'.decisions) :
    ∀ d ∈ k.decisions, ∃ d' ∈ k'.decisions, SameDecision d d' :=
  fun d hd => ⟨d, hsub hd, SameDecision.refl d⟩

theorem advances_updateAttempt {f : QualificationAttempt → QualificationAttempt}
    {rows : List AttemptDependency} (h : k.Sound rt) (ha : a ∈ k.attempts) (hopen : ¬ a.Ended)
    (hkeep : ∀ b, SameAttempt b (f b)) (hle : a.generation ≤ (f a).generation)
    (hrows : ∀ d ∈ rows, d.attemptId = a.id)
    (hstored : k.dependenciesOf a ≠ [] → rows = [] ∧ (f a).inputDigest = a.inputDigest) :
    Advances k
      (Kernel.updateAttempt { k with dependencies := k.dependencies ++ rows } a.id f) := by
  refine ⟨fun b hb => ?_, sameDecisions_of_subset (List.Subset.refl _)⟩
  obtain ⟨b', hb', hsame, ⟨rfl, rfl⟩ | ⟨hid, rfl⟩⟩ :=
    exists_mem_updateAttempt (f := f) h.attempts ha (hkeep a) hb
  · refine ⟨f b, hb', hsame, hle, fun hended => absurd hended hopen, fun hne => ?_⟩
    obtain ⟨rfl, hdigest⟩ := hstored hne
    refine ⟨?_, hdigest⟩
    show Kernel.dependenciesOf { k with dependencies := k.dependencies ++ [] } b = _
    rw [List.append_nil]
  · refine ⟨b', hb', hsame, le_rfl, fun _ => rfl, fun _ => ⟨?_, rfl⟩⟩
    exact dependenciesOf_append_of_ne hrows hid

theorem advances_turn {f : QualificationAttempt → QualificationAttempt} (h : k.Sound rt)
    (ha : a ∈ k.attempts) (hopen : ¬ a.Ended) (hkeep : ∀ b, SameAttempt b (f b))
    (hle : a.generation ≤ (f a).generation) (hdigest : (f a).inputDigest = a.inputDigest) :
    Advances k (k.updateAttempt a.id f) := by
  have hnil : { k with dependencies := k.dependencies ++ [] } = k := by
    rw [List.append_nil]
  have hadvances := @advances_updateAttempt _ _ _ f [] h ha hopen hkeep hle (by simp)
    (fun _ => ⟨rfl, hdigest⟩)
  rwa [hnil] at hadvances

theorem Sound.advances (h : k.Sound rt) (hmove : Move rt k k') : Advances k k' := by
  cases hmove with
  | begins =>
    exact .of_subset (List.subset_append_left _ _) rfl
      (sameDecisions_of_subset (List.Subset.refl _))
  | @claims a leaseOwner leaseExpiresAt ha hstate hfree =>
    apply advances_turn h ha
    · rintro (hended | hended) <;> simp [AttemptState.claimable, hended] at hstate
    · exact fun b => ⟨rfl, rfl, rfl, rfl, rfl, rfl⟩
    · simp [QualificationAttempt.claimed]
    · rfl
  | checkpoints =>
    exact .of_subset (List.Subset.refl _) rfl (sameDecisions_of_subset (List.Subset.refl _))
  | @snapshots a ds digest ha hstate hnone hne hdigest hheld =>
    apply advances_updateAttempt h ha
    · rintro (hended | hended) <;> simp [hended] at hstate
    · exact fun b => ⟨rfl, rfl, rfl, rfl, rfl, rfl⟩
    · exact le_rfl
    · intro d hd
      obtain ⟨x, -, rfl⟩ := List.mem_map.mp hd
      rfl
    · exact fun hstored => absurd hnone hstored
  | @stales a changed ha hstate =>
    apply advances_turn h ha
    · rintro (hended | hended) <;> simp [hended] at hstate
    · exact fun b => ⟨rfl, rfl, rfl, rfl, rfl, rfl⟩
    · exact le_rfl
    · rfl
  | @completes a ha hstate =>
    apply advances_turn h ha
    · rintro (hended | hended) <;> simp [hended] at hstate
    · exact fun b => ⟨rfl, rfl, rfl, rfl, rfl, rfl⟩
    · exact le_rfl
    · rfl
  | decides =>
    exact .of_subset (List.Subset.refl _) rfl
      (sameDecisions_of_subset (List.subset_append_left _ _))
  | @marks decisionId f hkeep hcurrent =>
    refine .of_subset (List.Subset.refl _) rfl (fun d hd => ?_)
    by_cases hid : d.id = decisionId
    · exact ⟨f d, Table.mem_update.mpr (.inl ⟨d, hd, hid, rfl⟩), hkeep d, hcurrent d⟩
    · exact ⟨d, Table.mem_update.mpr (.inr ⟨hd, hid⟩), SameDecision.refl d⟩

/-! ## Sequences of moves -/

/-- A transaction makes moves one after the other. -/
abbrev Moves (rt : Runtime) : Kernel → Kernel → Prop :=
  Relation.ReflTransGen (Move rt)

theorem Sound.moves (h : k.Sound rt) (hmoves : Moves rt k k') : k'.Sound rt ∧ Advances k k' := by
  induction hmoves with
  | refl => exact ⟨h, Advances.refl k⟩
  | tail _ hmove ih => exact ⟨ih.1.step hmove, ih.2.trans (ih.1.advances hmove)⟩

theorem sound_empty : Sound rt (QualificationDb.kernel {}) where
  attempts := Table.keyed_nil
  leased := fun _ h => nomatch h
  snapshotted := fun _ h => nomatch h
  descends := fun _ h => nomatch h
  successors := Table.keyed_nil
  held := fun _ h => nomatch h
  stored := fun _ h => nomatch h
  decisions := Table.keyed_nil
  decided := fun _ h => nomatch h
  recorded := fun _ h => nomatch h
  oneDecision := Table.keyed_nil
  oneCurrent := Table.keyed_nil

end Moves

end Kernel

end Persistence
