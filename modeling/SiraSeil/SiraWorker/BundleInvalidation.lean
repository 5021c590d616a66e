-- SUMMARY: Invalidation retires every stale decision of a tenant exactly when the missions it reopens can all be given a replacement.
import SiraSeil.SiraWorker.BundleActivation

/-!
# Invalidation

When a bundle is activated, each buyer's decisions over older bundles of the product are
retired and their missions opened again. All of it is one transaction: where one mission
cannot be given a replacement, every stale decision stays current.
-/

namespace SiraWorker

open Domain Persistence Raising

/-- Every current decision of the tenant that depends on a bundle of the product depends on the
    active one. -/
def NoStale (organizationId productId : String) (db : QualificationDb) : Prop :=
  ∀ d ∈ db.decisions, d.organizationId = organizationId → d.current = true →
    ∀ x ∈ db.decisionDependencies, x.organizationId = d.organizationId → x.decisionId = d.id →
      x.snapshot.kind = .productBundle → x.snapshot.identifier = productId → x.snapshot.IsActive db

instance (organizationId productId : String) (db : QualificationDb) :
    Decidable (NoStale organizationId productId db) :=
  inferInstanceAs (Decidable (∀ d ∈ db.decisions, _))

/-- The key of the event that opens a mission again. -/
def reopenKey (productId missionId : String) (generation : Nat) : String :=
  "qualification-mission-ready:" ++ missionId ++ ":bundle:" ++ productId ++ ":" ++
    toString generation

/-- The attempt of a stale decision that a replacement is needed for, with the key of the event
    that announces it. -/
def reopening (organizationId productId : String) (db : QualificationDb)
    (row : QualificationDecision × DecisionDependency) : Option (QualificationAttempt × String) :=
  let active := db.activeBundle row.2.snapshot.organizationId productId
  if row.2.isActive active then none
  else active.bind (fun active => (openMission organizationId row.1 db).map
    (fun r => (r.1, reopenKey productId r.2.id active.generation)))

/-- What an invalidation opens again. -/
def reopenings (organizationId productId : String) (db : QualificationDb) :
    List (QualificationAttempt × String) :=
  (decisionsOn organizationId productId db).filterMap (reopening organizationId productId db)

/-- A tenant has used the key of an event. -/
def Used (organizationId key : String) (db : QualificationDb) : Prop :=
  ∃ e ∈ db.outbox, e.organizationId = organizationId ∧ e.eventKey = key

/-- Every attempt that needs a replacement has one or is not the last of its chain, and every
    event gets a key of its own. -/
structure Retirable (organizationId productId : String) (db : QualificationDb) : Prop where
  replaceable : ∀ r ∈ reopenings organizationId productId db,
    r.1.replacementDepth < 3 ∨ (db.successor? r.1).isSome = true
  unused : ∀ r ∈ reopenings organizationId productId db, ¬ Used organizationId r.2 db
  distinct : ((reopenings organizationId productId db).map (·.2)).Nodup

/-- What `uuid4` draws is new: no two draws are the same, and no attempt has an id from them. -/
structure FreshUuids (given : Given) (db : QualificationDb) : Prop where
  injective : Function.Injective given.uuid
  attempts : ∀ name, ∀ a ∈ db.attempts, a.id ≠ "qattempt_" ++ given.uuid name

/-! ## Rounds -/

/-- What the rounds of an invalidation read of a mission. -/
def missionView (m : QualificationMission) : String × Bool :=
  (m.id, decide (m.state = .failed ∨ m.state = .cancelled))

/-- The tables during an invalidation that started from others and has used keys. -/
structure Retiring (organizationId : String) (given : Given) (start : QualificationDb)
    (keys : List String) (db : QualificationDb) : Prop where
  pointers : db.activeBundles = start.activeBundles
  missions : ∀ id, (db.mission? organizationId id).map missionView =
    (start.mission? organizationId id).map missionView
  attempts : ∃ replacements, db.attempts = start.attempts ++ replacements ∧
    ∀ b ∈ replacements, ∃ a ∈ start.attempts, a.organizationId = organizationId ∧
      a.replacementDepth < 3 ∧ b = a.replacement given
  used : ∀ key, Used organizationId key db ↔ Used organizationId key start ∨ key ∈ keys

/-- An attempt can be given a replacement, under a key that is free. -/
structure Reopens (organizationId : String) (keys : List String) (db : QualificationDb)
    (r : QualificationAttempt × String) : Prop where
  replaceable : r.1.replacementDepth < 3 ∨ (db.successor? r.1).isSome = true
  unused : ¬ Used organizationId r.2 db
  distinct : r.2 ∉ keys

section Rounds

variable {organizationId productId : String} {given : Given}
  {start db db' : QualificationDb} {keys : List String}
  {row : QualificationDecision × DecisionDependency} {result result' : BundleInvalidationResult}

theorem retiring_self (db : QualificationDb) : Retiring organizationId given db [] db where
  pointers := rfl
  missions := fun _ => rfl
  attempts := ⟨[], (List.append_nil _).symm, fun _ h => nomatch h⟩
  used := by simp

variable {a : QualificationAttempt} {mission : QualificationMission}
  {r : QualificationAttempt × String}

theorem openMission_eq_some {d : QualificationDecision} :
    openMission organizationId d db = some (a, mission) ↔
      db.attempt? organizationId d.attemptId = some a ∧
        db.mission? organizationId d.missionId = some mission ∧
        (missionView mission).2 = false := by
  unfold openMission missionView
  cases hattempt : db.attempt? organizationId d.attemptId with
  | none => simp
  | some b =>
    cases hmission : db.mission? organizationId d.missionId with
    | none => simp
    | some m =>
      simp only [Option.some.injEq]
      by_cases hended : m.state = .failed ∨ m.state = .cancelled
      · rw [if_pos hended]
        simp only [reduceCtorEq, decide_eq_false_iff_not, false_iff, not_and, not_not]
        rintro - rfl
        exact hended
      · rw [if_neg hended, Option.some.injEq, Prod.mk.injEq]
        simp only [decide_eq_false_iff_not]
        constructor
        · rintro ⟨rfl, rfl⟩
          exact ⟨rfl, rfl, hended⟩
        · rintro ⟨rfl, rfl, -⟩
          exact ⟨rfl, rfl⟩

theorem Retiring.attempt? {attemptId : String} (h : Retiring organizationId given start keys db)
    (ha : start.attempt? organizationId attemptId = some a) :
    db.attempt? organizationId attemptId = some a := by
  obtain ⟨replacements, hattempts, -⟩ := h.attempts
  unfold QualificationDb.attempt? at ha ⊢
  rw [hattempts, List.find?_append, ha]
  rfl

theorem Retiring.openMission_eq {d : QualificationDecision}
    (h : Retiring organizationId given start keys db)
    (ha : start.attempt? organizationId d.attemptId = some a) :
    (openMission organizationId d db).map (fun r => (r.1, r.2.id)) =
      (openMission organizationId d start).map (fun r => (r.1, r.2.id)) := by
  have hmission := h.missions d.missionId
  unfold openMission
  rw [h.attempt? ha, ha]
  cases hstart : start.mission? organizationId d.missionId with
  | none =>
    rw [hstart, Option.map_none, Option.map_eq_none_iff] at hmission
    rw [hmission]
  | some m =>
    rw [hstart, Option.map_some, Option.map_eq_some_iff] at hmission
    obtain ⟨m', hm', hview⟩ := hmission
    simp only [missionView, Prod.mk.injEq, decide_eq_decide] at hview
    rw [hm']
    dsimp only
    rw [if_congr hview.2 rfl rfl]
    split
    · rfl
    · exact congrArg (fun id => some (a, id)) hview.1

theorem Retiring.reopening_eq (h : Retiring organizationId given start keys db)
    (ha : start.attempt? organizationId row.1.attemptId = some a) :
    reopening organizationId productId db row = reopening organizationId productId start row := by
  have hactive : db.activeBundle row.2.snapshot.organizationId productId =
      start.activeBundle row.2.snapshot.organizationId productId := by
    unfold QualificationDb.activeBundle
    rw [h.pointers]
  unfold reopening
  rw [hactive]
  dsimp only
  split
  · rfl
  · congr 1
    funext active
    have hopen := congrArg (Option.map (fun r : QualificationAttempt × String =>
      (r.1, reopenKey productId r.2 active.generation))) (h.openMission_eq ha)
    rw [Option.map_map, Option.map_map] at hopen
    exact hopen

theorem successor?_eq_none :
    db.successor? a = none ↔ ∀ b ∈ db.attempts, ¬ (b.organizationId = a.organizationId ∧
      b.predecessorAttemptId = some a.id) := by
  unfold QualificationDb.successor?
  rw [List.find?_eq_none]
  simp only [decide_eq_true_eq]

theorem Retiring.replaceable_iff (h : Retiring organizationId given start keys db)
    (hkeyed : Table.Keyed (·.id) start.attempts) (ha : a ∈ start.attempts) :
    (a.replacementDepth < 3 ∨ (db.successor? a).isSome = true) ↔
      a.replacementDepth < 3 ∨ (start.successor? a).isSome = true := by
  obtain ⟨replacements, hattempts, hreplacements⟩ := h.attempts
  refine or_congr_right' (fun hdepth => ?_)
  rw [← not_iff_not, Option.not_isSome_iff_eq_none, Option.not_isSome_iff_eq_none,
    successor?_eq_none, successor?_eq_none, hattempts]
  constructor
  · exact fun hnone b hb => hnone b (List.mem_append_left _ hb)
  · rintro hnone b hb ⟨horg, hpredecessor⟩
    rcases List.mem_append.mp hb with hb | hb
    · exact hnone b hb ⟨horg, hpredecessor⟩
    · obtain ⟨c, hc, -, hlow, rfl⟩ := hreplacements b hb
      obtain rfl := hkeyed.eq hc ha (Option.some.inj hpredecessor)
      exact hdepth hlow

theorem Retiring.fresh (h : Retiring organizationId given start keys db)
    (hfresh : FreshUuids given start) (hkeyed : Table.Keyed (·.id) start.attempts)
    (ha : a ∈ start.attempts)
    (hnone : db.successor? a = none) : ∀ c ∈ db.attempts, c.id ≠ (a.replacement given).id := by
  obtain ⟨replacements, hattempts, hreplacements⟩ := h.attempts
  rw [successor?_eq_none] at hnone
  intro c hc hid
  have hc' := hc
  rw [hattempts] at hc'
  rcases List.mem_append.mp hc' with hstart | hnew
  · exact hfresh.attempts a.id c hstart hid
  · obtain ⟨b, hb, -, -, rfl⟩ := hreplacements c hnew
    -- Ids of the draws are the same only for one attempt, which then has a successor.
    have hname : b.id = a.id := hfresh.injective (String.append_right_inj _ |>.mp hid)
    obtain rfl := hkeyed.eq hb ha hname
    exact hnone _ hc ⟨rfl, rfl⟩

theorem reopening_eq_some :
    reopening organizationId productId db row = some r ↔
      ∃ active mission,
        row.2.isActive (db.activeBundle row.2.snapshot.organizationId productId) = false ∧
        db.activeBundle row.2.snapshot.organizationId productId = some active ∧
        openMission organizationId row.1 db = some (r.1, mission) ∧
        r.2 = reopenKey productId mission.id active.generation := by
  unfold reopening
  dsimp only
  split
  · next hactive => simp [hactive]
  · next hactive =>
    rw [Bool.not_eq_true] at hactive
    rw [Option.bind_eq_some_iff]
    constructor
    · rintro ⟨active, hpointer, hmapped⟩
      obtain ⟨⟨a, mission⟩, hopen, rfl⟩ := Option.map_eq_some_iff.mp hmapped
      exact ⟨active, mission, hactive, hpointer, hopen, rfl⟩
    · rintro ⟨active, mission, -, hpointer, hopen, hkey⟩
      exact ⟨active, hpointer, Option.map_eq_some_iff.mpr ⟨(r.1, mission), hopen,
        Prod.ext rfl hkey.symm⟩⟩

theorem exists_invalidateDecision_of_none (given : Given) (result : BundleInvalidationResult)
    (hnone : reopening organizationId productId db row = none) :
    ∃ result' db', invalidateDecision organizationId productId given row (result, db) =
        .ok (result', db') ∧
      (db' = db ∨ db' = retireDecision organizationId row.1 db) := by
  cases hactive : row.2.isActive (db.activeBundle row.2.snapshot.organizationId productId) with
  | true => exact ⟨_, _, invalidateDecision_eq_ok.mpr (.inl ⟨hactive, rfl, rfl⟩), .inl rfl⟩
  | false =>
    cases hpointer : db.activeBundle row.2.snapshot.organizationId productId with
    | none =>
      exact ⟨_, _, invalidateDecision_eq_ok.mpr (.inr ⟨hactive, .inl ⟨hpointer, rfl, rfl⟩⟩),
        .inr rfl⟩
    | some active =>
      have hclosed : openMission organizationId row.1 db = none := by
        cases hopen : openMission organizationId row.1 db with
        | none => rfl
        | some r =>
          have hsome : reopening organizationId productId db row =
              some (r.1, reopenKey productId r.2.id active.generation) :=
            (reopening_eq_some).mpr ⟨active, r.2, hactive, hpointer, hopen, rfl⟩
          rw [hnone] at hsome
          cases hsome
      refine ⟨_, _, invalidateDecision_eq_ok.mpr (.inr ⟨hactive, .inr ⟨active, none, hpointer,
        ?_, rfl⟩⟩), .inr rfl⟩
      exact reopenMission_eq_ok.mpr (.inl ⟨hclosed, rfl, rfl⟩)

theorem invalidateDecision_of_open {active : ActiveProductBundle}
    (hactive : row.2.isActive (db.activeBundle row.2.snapshot.organizationId productId) = false)
    (hpointer : db.activeBundle row.2.snapshot.organizationId productId = some active)
    (hopen : openMission organizationId row.1 db = some (a, mission)) :
    invalidateDecision organizationId productId given row (result, db) = .ok (result', db') ↔
      ∃ b replaced,
        replacementFor organizationId a given (retireDecision organizationId row.1 db) =
          .ok (b, replaced) ∧
        addOutbox (reopenEvent organizationId productId mission active b.id)
          (readyMission mission.id replaced) = .ok db' ∧
        result' = { result with
          invalidatedDecisionIds := result.invalidatedDecisionIds ++ [row.1.id]
          replacementAttemptIds := result.replacementAttemptIds ++ [b.id] } := by
  have hretired : openMission organizationId row.1 (retireDecision organizationId row.1 db) =
      some (a, mission) := hopen
  rw [invalidateDecision_eq_ok]
  constructor
  · rintro (⟨hstays, -⟩ | ⟨-, ⟨hnone, -⟩ | ⟨active', replacement, hpointer', hreopen, rfl⟩⟩)
    · rw [hactive] at hstays
      cases hstays
    · rw [hpointer] at hnone
      cases hnone
    · obtain rfl := Option.some.inj (hpointer.symm.trans hpointer')
      rcases reopenMission_eq_ok.mp hreopen with ⟨hclosed, -⟩ | ⟨a', mission', hopen', b, replaced,
        hreplace, houtbox, rfl⟩
      · rw [hretired] at hclosed
        cases hclosed
      · rw [hretired] at hopen'
        cases hopen'
        exact ⟨b, replaced, hreplace, houtbox, rfl⟩
  · rintro ⟨b, replaced, hreplace, houtbox, rfl⟩
    refine .inr ⟨hactive, .inr ⟨active, some b.id, hpointer, ?_, rfl⟩⟩
    exact reopenMission_eq_ok.mpr
      (.inr ⟨a, mission, hretired, b, replaced, hreplace, houtbox, rfl⟩)

theorem missionView_readyMission (hmission : db.mission? organizationId mission.id = some mission)
    (hopen : (missionView mission).2 = false) (id : String) :
    ((readyMission mission.id db).mission? organizationId id).map missionView =
      (db.mission? organizationId id).map missionView := by
  have hfind : (readyMission mission.id db).mission? organizationId id =
      (db.mission? organizationId id).map (fun m =>
        if m.id = mission.id then { m with state := .ready } else m) :=
    Table.find?_update (fun _ => rfl)
  rw [hfind, Option.map_map]
  cases hfound : db.mission? organizationId id with
  | none => rfl
  | some m =>
    obtain ⟨-, -, rfl⟩ := QualificationDb.mission?_eq_some hfound
    rw [Option.map_some, Option.map_some]
    dsimp only [Function.comp]
    split
    · next heq =>
      rw [heq, hmission] at hfound
      cases hfound
      exact congrArg some (Prod.ext rfl hopen.symm)
    · rfl

/-- A round that opens a mission again found the key of its event free and gave the attempt a
    replacement where it had none. -/
theorem Retiring.reopened (h : Retiring organizationId given start keys db)
    (hkeyed : Table.Keyed (·.id) start.attempts)
    (ha : start.attempt? organizationId row.1.attemptId = some a)
    (hsome : reopening organizationId productId start row = some r)
    (hround : invalidateDecision organizationId productId given row (result, db) =
      .ok (result', db')) :
    Reopens organizationId keys start r ∧ Retiring organizationId given start (keys ++ [r.2]) db' := by
  rw [← h.reopening_eq ha] at hsome
  obtain ⟨active, mission, hactive, hpointer, hopen, hkey⟩ := (reopening_eq_some).mp hsome
  obtain ⟨hattempt, hmission, hstate⟩ := (openMission_eq_some).mp hopen
  obtain rfl : a = r.1 := Option.some.inj ((h.attempt? ha).symm.trans hattempt)
  obtain ⟨hmem, horg, -⟩ := QualificationDb.attempt?_eq_some ha
  obtain ⟨-, -, hid⟩ := QualificationDb.mission?_eq_some hmission
  rw [← hid] at hmission
  obtain ⟨b, replaced, hreplace, houtbox, -⟩ :=
    (invalidateDecision_of_open hactive hpointer hopen).mp hround
  obtain ⟨hfree, rfl⟩ := addOutbox_eq_ok.mp houtbox
  have hreplaced := (replacementFor_eq_ok horg).mp hreplace
  have hunused : ¬ Used organizationId r.2 db := by
    rintro ⟨e, he, heorg, hekey⟩
    rw [hkey] at hekey
    refine hfree e ?_ ⟨heorg, hekey⟩
    rcases hreplaced with ⟨-, rfl⟩ | ⟨-, -, -, -, rfl⟩
    · exact he
    · exact he
  rw [h.used, not_or] at hunused
  have hused : ∀ key, Used organizationId key { db with
      outbox := db.outbox ++ [reopenEvent organizationId productId mission active b.id] } ↔
      Used organizationId key start ∨ key ∈ keys ++ [r.2] := by
    intro key
    rw [List.mem_append, ← or_assoc, ← h.used, List.mem_singleton, hkey, eq_comm]
    unfold Used
    simp only [List.mem_append, List.mem_singleton, or_and_right, exists_or, exists_eq_left]
    exact or_congr_right (and_iff_right rfl)
  obtain ⟨replacements, hattempts, hreplacements⟩ := h.attempts
  rcases hreplaced with ⟨hsuccessor, rfl⟩ | ⟨hnone, hlow, -, -, rfl⟩
  · refine ⟨⟨?_, hunused.1, hunused.2⟩, h.pointers, ?_, h.attempts, hused⟩
    · refine (h.replaceable_iff hkeyed hmem).mp (.inr ?_)
      exact Option.isSome_iff_exists.mpr ⟨b, hsuccessor⟩
    · exact fun id => (missionView_readyMission hmission hstate id).trans (h.missions id)
  · refine ⟨⟨.inl hlow, hunused.1, hunused.2⟩, h.pointers, ?_, ?_, hused⟩
    · exact fun id => (missionView_readyMission hmission hstate id).trans (h.missions id)
    · refine ⟨replacements ++ [r.1.replacement given], ?_, ?_⟩
      · rw [← List.append_assoc, ← hattempts]
        rfl
      · intro c hc
        rcases List.mem_append.mp hc with hc | hc
        · exact hreplacements c hc
        · exact ⟨r.1, hmem, horg, hlow, List.mem_singleton.mp hc⟩

theorem Retiring.exists_reopened (result : BundleInvalidationResult)
    (h : Retiring organizationId given start keys db) (hfresh : FreshUuids given start)
    (hkeyed : Table.Keyed (·.id) start.attempts)
    (ha : start.attempt? organizationId row.1.attemptId = some a)
    (hsome : reopening organizationId productId start row = some r)
    (hreopens : Reopens organizationId keys start r) :
    ∃ result' db', invalidateDecision organizationId productId given row (result, db) =
      .ok (result', db') := by
  rw [← h.reopening_eq ha] at hsome
  obtain ⟨active, mission, hactive, hpointer, hopen, hkey⟩ := (reopening_eq_some).mp hsome
  obtain ⟨hattempt, -⟩ := (openMission_eq_some).mp hopen
  obtain rfl : a = r.1 := Option.some.inj ((h.attempt? ha).symm.trans hattempt)
  obtain ⟨hmem, horg, -⟩ := QualificationDb.attempt?_eq_some ha
  have hunused : ¬ Used organizationId r.2 db := by
    rw [h.used, not_or]
    exact ⟨hreopens.unused, hreopens.distinct⟩
  have hreplaced : ∃ b replaced, replacementFor organizationId r.1 given
      (retireDecision organizationId row.1 db) = .ok (b, replaced) ∧
      replaced.outbox = db.outbox := by
    cases hsuccessor : db.successor? r.1 with
    | some b => exact ⟨b, _, (replacementFor_eq_ok horg).mpr (.inl ⟨hsuccessor, rfl⟩), rfl⟩
    | none =>
      have hlow : r.1.replacementDepth < 3 := by
        rcases (h.replaceable_iff hkeyed hmem).mpr hreopens.replaceable with hlow | hsome
        · exact hlow
        · rw [hsuccessor] at hsome
          cases hsome
      exact ⟨_, _, (replacementFor_eq_ok horg).mpr (.inr ⟨hsuccessor, hlow,
        h.fresh hfresh hkeyed hmem hsuccessor, rfl, rfl⟩), rfl⟩
  obtain ⟨b, replaced, hreplace, houtbox⟩ := hreplaced
  refine ⟨_, _, (invalidateDecision_of_open hactive hpointer hopen).mpr
    ⟨b, replaced, hreplace, addOutbox_eq_ok.mpr ⟨?_, rfl⟩, rfl⟩⟩
  rintro e he ⟨heorg, hekey⟩
  refine hunused ⟨e, ?_, heorg, hekey.trans hkey.symm⟩
  rw [← houtbox]
  exact he

theorem Retiring.closed (result : BundleInvalidationResult)
    (h : Retiring organizationId given start keys db)
    (ha : start.attempt? organizationId row.1.attemptId = some a)
    (hnone : reopening organizationId productId start row = none) :
    ∃ result' db', invalidateDecision organizationId productId given row (result, db) =
        .ok (result', db') ∧ Retiring organizationId given start keys db' := by
  rw [← h.reopening_eq ha] at hnone
  obtain ⟨result', db', hround, rfl | rfl⟩ := exists_invalidateDecision_of_none given result hnone
  · exact ⟨result', db', hround, h⟩
  · exact ⟨result', _, hround, h.pointers, h.missions, h.attempts, h.used⟩

theorem reopens_append {key : String} :
    Reopens organizationId (keys ++ [key]) db r ↔ Reopens organizationId keys db r ∧ r.2 ≠ key := by
  constructor
  · intro h
    have hkeys := h.distinct
    rw [List.mem_append, not_or, List.mem_singleton] at hkeys
    exact ⟨⟨h.replaceable, h.unused, hkeys.1⟩, hkeys.2⟩
  · rintro ⟨h, hne⟩
    refine ⟨h.replaceable, h.unused, ?_⟩
    rw [List.mem_append, not_or, List.mem_singleton]
    exact ⟨h.distinct, hne⟩

/-- The rounds return exactly when each mission that they open again gets a replacement, under
    a key that neither the tenant nor an earlier round has used. -/
theorem Retiring.rounds_iff {rows : List (QualificationDecision × DecisionDependency)}
    (result : BundleInvalidationResult) (h : Retiring organizationId given start keys db)
    (hfresh : FreshUuids given start) (hkeyed : Table.Keyed (·.id) start.attempts)
    (hattempts : ∀ row ∈ rows, ∃ a, start.attempt? organizationId row.1.attemptId = some a) :
    (∃ result' db', rows.foldlM
        (fun done row => invalidateDecision organizationId productId given row done) (result, db) =
          .ok (result', db')) ↔
      (∀ r ∈ rows.filterMap (reopening organizationId productId start),
          Reopens organizationId keys start r) ∧
        ((rows.filterMap (reopening organizationId productId start)).map (·.2)).Nodup := by
  induction rows generalizing keys db result with
  | nil => simp
  | cons row rows ih =>
    obtain ⟨a, ha⟩ := hattempts row List.mem_cons_self
    have hrest := fun x hx => hattempts x (List.mem_cons_of_mem row hx)
    cases hreopening : reopening organizationId productId start row with
    | none =>
      obtain ⟨result', db', hround, h'⟩ := h.closed result ha hreopening
      rw [List.filterMap_cons_none hreopening, List.foldlM_cons, hround, ok_bind]
      exact ih result' h' hrest
    | some r =>
      rw [List.filterMap_cons_some hreopening, List.map_cons, List.nodup_cons]
      simp only [List.forall_mem_cons, List.foldlM_cons, bind_eq_ok, Prod.exists]
      constructor
      · rintro ⟨result'', db'', result', db', hround, hfold⟩
        obtain ⟨hreopens, h'⟩ := h.reopened hkeyed ha hreopening hround
        obtain ⟨hlater, hnodup⟩ := (ih result' h' hrest).mp ⟨result'', db'', hfold⟩
        refine ⟨⟨hreopens, fun x hx => ((reopens_append).mp (hlater x hx)).1⟩, ?_, hnodup⟩
        intro hmem
        obtain ⟨x, hx, heq⟩ := List.mem_map.mp hmem
        exact ((reopens_append).mp (hlater x hx)).2 heq
      · rintro ⟨⟨hreopens, hlater⟩, hne, hnodup⟩
        obtain ⟨result', db', hround⟩ :=
          h.exists_reopened result hfresh hkeyed ha hreopening hreopens
        obtain ⟨-, h'⟩ := h.reopened hkeyed ha hreopening hround
        have hlater' : ∀ x ∈ rows.filterMap (reopening organizationId productId start),
            Reopens organizationId (keys ++ [r.2]) start x :=
          fun x hx => (reopens_append).mpr
            ⟨hlater x hx, fun heq => hne (List.mem_map.mpr ⟨x, hx, heq⟩)⟩
        obtain ⟨result'', db'', hfold⟩ := (ih result' h' hrest).mpr ⟨hlater', hnodup⟩
        exact ⟨result'', db'', result', db', hround, hfold⟩

/-! ## Invalidations -/

theorem mem_decisionsOn :
    row ∈ decisionsOn organizationId productId db ↔
      row.1 ∈ db.decisions ∧ row.1.organizationId = organizationId ∧ row.1.current = true ∧
        row.2 ∈ db.decisionDependencies ∧ row.2.organizationId = row.1.organizationId ∧
        row.2.decisionId = row.1.id ∧ row.2.snapshot.kind = .productBundle ∧
        row.2.snapshot.identifier = productId := by
  obtain ⟨d, x⟩ := row
  unfold decisionsOn
  rw [Sorting.mem_sortedBy, List.mem_flatMap]
  simp only [List.mem_filter, decide_eq_true_eq, List.mem_map, Prod.mk.injEq]
  constructor
  · rintro ⟨_, ⟨hd, horg, hcurrent⟩, _, ⟨hx, hkeys⟩, rfl, rfl⟩
    exact ⟨hd, horg, hcurrent, hx, hkeys⟩
  · rintro ⟨hd, horg, hcurrent, hx, hkeys⟩
    exact ⟨d, ⟨hd, horg, hcurrent⟩, x, ⟨hx, hkeys⟩, rfl, rfl⟩

theorem invalidate_returns_iff {rt : Runtime} (hsound : db.kernel.Sound rt)
    (hfresh : FreshUuids given db) :
    (∃ result next, invalidateDecisionsForActiveBundle organizationId productId given db =
        .ok (result, next)) ↔ Retirable organizationId productId db := by
  have hattempts : ∀ row ∈ decisionsOn organizationId productId db,
      ∃ a, db.attempt? organizationId row.1.attemptId = some a := by
    intro row hrow
    obtain ⟨hd, horg, -⟩ := (mem_decisionsOn).mp hrow
    obtain ⟨a, ha, hof, -⟩ := hsound.decided row.1 hd
    refine ⟨a, ?_⟩
    rw [← horg, hof.1, hof.2]
    exact QualificationDb.attempt?_of_mem hsound.attempts ha
  unfold invalidateDecisionsForActiveBundle
  rw [(retiring_self db).rounds_iff _ hfresh hsound.attempts hattempts]
  constructor
  · rintro ⟨hreopens, hnodup⟩
    exact ⟨fun r hr => (hreopens r hr).replaceable, fun r hr => (hreopens r hr).unused, hnodup⟩
  · intro h
    exact ⟨fun r hr => ⟨h.replaceable r hr, h.unused r hr, List.not_mem_nil⟩, h.distinct⟩

/-- No decision becomes current, and nothing changes that makes one stale. -/
structure Retires (db db' : QualificationDb) : Prop where
  decisions : ∀ d ∈ db'.decisions, d.current = true → d ∈ db.decisions
  dependencies : db'.decisionDependencies = db.decisionDependencies
  pointers : db'.activeBundles = db.activeBundles

theorem Retires.refl (db : QualificationDb) : Retires db db :=
  ⟨fun _ hd _ => hd, rfl, rfl⟩

theorem Retires.trans {db db' db'' : QualificationDb} (h : Retires db db')
    (h' : Retires db' db'') : Retires db db'' where
  decisions := fun d hd hcurrent => h.decisions d (h'.decisions d hd hcurrent) hcurrent
  dependencies := h'.dependencies.trans h.dependencies
  pointers := h'.pointers.trans h.pointers

theorem retires_retireDecision (organizationId : String) (d : QualificationDecision)
    (db : QualificationDb) :
    Retires db (retireDecision organizationId d db) ∧
      ∀ x ∈ (retireDecision organizationId d db).decisions, x.id = d.id → x.current = false := by
  refine ⟨⟨fun x hx hcurrent => ?_, rfl, rfl⟩, fun x hx hid => ?_⟩
  · rcases Table.mem_update.mp hx with ⟨y, -, -, rfl⟩ | ⟨hx, -⟩
    · cases hcurrent
    · exact hx
  · rcases Table.mem_update.mp hx with ⟨y, -, -, rfl⟩ | ⟨-, hne⟩
    · rfl
    · exact absurd hid hne

theorem retires_of_invalidateDecision
    (h : invalidateDecision organizationId productId given row (result, db) = .ok (result', db')) :
    Retires db db' ∧
      (row.2.isActive (db.activeBundle row.2.snapshot.organizationId productId) = false →
        ∀ x ∈ db'.decisions, x.id = row.1.id → x.current = false) := by
  have hretired := retires_retireDecision organizationId row.1 db
  rcases invalidateDecision_eq_ok.mp h with ⟨hactive, -, rfl⟩ |
    ⟨-, ⟨-, rfl, -⟩ | ⟨active, replacement, -, hreopen, -⟩⟩
  · refine ⟨Retires.refl db', fun hstale => ?_⟩
    rw [hactive] at hstale
    cases hstale
  · exact ⟨hretired.1, fun _ => hretired.2⟩
  · rcases reopenMission_eq_ok.mp hreopen with ⟨-, -, rfl⟩ | ⟨a, mission, hopen, b, replaced,
      hreplace, houtbox, -⟩
    · exact ⟨hretired.1, fun _ => hretired.2⟩
    · obtain ⟨-, horg, -⟩ := QualificationDb.attempt?_eq_some (mem_of_openMission hopen).1
      obtain ⟨-, rfl⟩ := addOutbox_eq_ok.mp houtbox
      rcases (replacementFor_eq_ok horg).mp hreplace with ⟨-, rfl⟩ | ⟨-, -, -, -, rfl⟩
      · exact ⟨⟨hretired.1.decisions, rfl, rfl⟩, fun _ => hretired.2⟩
      · exact ⟨⟨hretired.1.decisions, rfl, rfl⟩, fun _ => hretired.2⟩

theorem retires_of_rounds {rows : List (QualificationDecision × DecisionDependency)}
    (h : rows.foldlM (fun done row => invalidateDecision organizationId productId given row done)
      (result, db) = .ok (result', db')) :
    Retires db db' ∧ ∀ row ∈ rows,
      row.2.isActive (db.activeBundle row.2.snapshot.organizationId productId) = false →
        ∀ x ∈ db'.decisions, x.id = row.1.id → x.current = false := by
  induction rows generalizing result db with
  | nil =>
    cases h
    exact ⟨Retires.refl db', fun _ hrow => nomatch hrow⟩
  | cons row rows ih =>
    rw [List.foldlM_cons, bind_eq_ok] at h
    obtain ⟨⟨result₁, db₁⟩, hround, hrest⟩ := h
    obtain ⟨hretires, hstale⟩ := retires_of_invalidateDecision hround
    obtain ⟨hlater, hrows⟩ := ih hrest
    refine ⟨hretires.trans hlater, fun r hr hinactive x hx hid => ?_⟩
    rcases List.mem_cons.mp hr with rfl | hr
    · -- What the first round retired stays retired.
      by_contra hcurrent
      rw [Bool.not_eq_false] at hcurrent
      have hgone := hstale hinactive x (hlater.decisions x hx hcurrent) hid
      rw [hcurrent] at hgone
      cases hgone
    · refine hrows r hr ?_ x hx hid
      unfold QualificationDb.activeBundle at hinactive ⊢
      rw [hretires.pointers]
      exact hinactive

theorem isActive_of_activeBundle {x : DecisionDependency}
    (h : x.isActive (db.activeBundle x.snapshot.organizationId x.snapshot.identifier) = true) :
    x.snapshot.IsActive db := by
  unfold DecisionDependency.isActive at h
  cases hfind : db.activeBundle x.snapshot.organizationId x.snapshot.identifier with
  | none =>
    rw [hfind] at h
    cases h
  | some a =>
    rw [hfind, Option.any_some, decide_eq_true_eq] at h
    have hkeys := List.find?_some hfind
    simp only [decide_eq_true_eq] at hkeys
    exact ⟨a, List.mem_of_find?_eq_some hfind, hkeys.1, hkeys.2, h⟩

theorem noStale_of_invalidate
    (h : invalidateDecisionsForActiveBundle organizationId productId given db =
      .ok (result, db')) : NoStale organizationId productId db' := by
  obtain ⟨hretires, hrows⟩ := retires_of_rounds h
  intro d hd horg hcurrent x hx hxorg hxid hkind hproduct
  rw [hretires.dependencies] at hx
  have hrow : (d, x) ∈ decisionsOn organizationId productId db :=
    (mem_decisionsOn).mpr ⟨hretires.decisions d hd hcurrent, horg, hcurrent, hx, hxorg, hxid, hkind,
      hproduct⟩
  by_contra hinactive
  have hgone := hrows (d, x) hrow ?_ d hd rfl
  · rw [hcurrent] at hgone
    cases hgone
  · rw [← Bool.not_eq_true, ← hproduct]
    intro hactive
    obtain ⟨a, ha, hkeys⟩ := isActive_of_activeBundle hactive
    refine hinactive ⟨a, ?_, hkeys⟩
    rw [hretires.pointers]
    exact ha

end Rounds

/-! ## Runs -/

/-- After any transactions, an invalidation returns and leaves no stale decision of the tenant
    current exactly when every mission that it opens again can be given a replacement. -/
theorem invalidation_retires_iff (rt : Runtime) (ts : List Submitted)
    (organizationId productId : String) (given : Given)
    (hfresh : FreshUuids given (tablesAfter rt ts)) :
    (∃ result next, invalidateDecisionsForActiveBundle organizationId productId given
        (tablesAfter rt ts) = .ok (result, next) ∧ NoStale organizationId productId next) ↔
      Retirable organizationId productId (tablesAfter rt ts) := by
  rw [← invalidate_returns_iff (sound_tablesAfter rt ts) hfresh]
  constructor
  · rintro ⟨result, next, hreturns, -⟩
    exact ⟨result, next, hreturns⟩
  · rintro ⟨result, next, hreturns⟩
    exact ⟨result, next, hreturns, noStale_of_invalidate hreturns⟩

namespace Sample

theorem uuid_injective (n : Nat) : Function.Injective (given n).uuid :=
  fun _ _ h => String.append_left_inj _ |>.mp h

theorem freshUuids_given {n : Nat} {c : Char} {db : QualificationDb}
    (hlast : (toString n).toList.getLast? = some c)
    (h : ∀ a ∈ db.attempts, a.id.toList.getLast? ≠ some c) : FreshUuids (given n) db where
  injective := uuid_injective n
  attempts := by
    intro name a ha hid
    apply h a ha
    rw [hid]
    show ("qattempt_" ++ (name ++ toString n)).toList.getLast? = some c
    rw [String.toList_append, String.toList_append, List.getLast?_append, List.getLast?_append,
      hlast]
    rfl

/-- The attempt of a mission has been replaced three times when it decides. -/
def exhaustedChain (organizationId missionId : String) : List Submitted :=
  evaluated organizationId missionId 1 [] second ++
    evaluated organizationId missionId 2 [1] second ++
    evaluated organizationId missionId 3 [2, 1] second ++
    evaluated organizationId missionId 4 [3, 2, 1] first

/-- The bundle of an exhausted chain is replaced. -/
def exhausted : List Submitted :=
  published ++ mission "buyer" 0 ++ exhaustedChain "buyer" (missionId 0) ++ activated 5 second

/-- The first attempt of a mission decides before its bundle is replaced. -/
def replaced : List Submitted :=
  published ++ mission "buyer" 0 ++ evaluated "buyer" (missionId 0) 1 [] first ++
    activated 2 second

end Sample

open Sample

/-- Where the chain of an attempt is exhausted, its stale decision stays current. -/
theorem exhausted_chain_stays_stale :
    FreshUuids (given 6) (tablesAfter .ascii exhausted) ∧
      ¬ ∃ result next, invalidateDecisionsForActiveBundle "buyer" "crm" (given 6)
        (tablesAfter .ascii exhausted) = .ok (result, next) ∧ NoStale "buyer" "crm" next := by
  constructor
  · exact freshUuids_given (c := '6') rfl (by decide +kernel)
  · rintro ⟨result, next, hreturns, -⟩
    have hraises : (invalidateDecisionsForActiveBundle "buyer" "crm" (given 6)
        (tablesAfter .ascii exhausted)).isOk = false := by decide +kernel
    rw [hreturns] at hraises
    cases hraises

theorem invalidation_retires_iff_sample :
    ∃ result next, invalidateDecisionsForActiveBundle "buyer" "crm" (given 3)
      (tablesAfter .ascii replaced) = .ok (result, next) ∧ NoStale "buyer" "crm" next := by
  have hfresh : FreshUuids (given 3) (tablesAfter .ascii replaced) :=
    freshUuids_given (c := '3') rfl (by decide +kernel)
  refine (invalidation_retires_iff .ascii replaced "buyer" "crm" (given 3) hfresh).mpr ⟨?_, ?_, ?_⟩
  · decide +kernel
  · unfold Used
    decide +kernel
  · decide +kernel

end SiraWorker
