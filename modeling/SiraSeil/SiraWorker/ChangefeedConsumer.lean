-- SUMMARY: The consumer of bundle changes as a sequence of transactions, one for each tenant, and the states in which no tenant keeps another on stale decisions.
import SiraSeil.SiraWorker.BundleInvalidation
import SiraSeil.SiraWorker.MissionStates

/-!
# The changefeed consumer

`services/worker/sira_worker/changefeed_consumer.py`. A hint names a product whose bundle has
changed. The consumer invalidates in the tenants of its settings and of the directory, one
after the other in the order of their ids. Each invalidation is a transaction of its own, and
the first one that raises ends the processing of the hint.
-/

namespace SiraWorker

open Domain Persistence Sorting Raising

/-- `_validated_organization_id` -/
def validatedOrganizationId (organizationId : String) : Qualified String :=
  if 1 ≤ organizationId.length ∧ organizationId.length ≤ 48 ∧ organizationId.toList.all
      (fun c => c.isAlphanum || c == '_' || c == '-') then .ok organizationId
  else .error (.valueError
    "organization_id must contain 1-48 ASCII letters, digits, underscores, or hyphens")

/-- `Database.organization_ids` over the rows of the directory. -/
def directoryIds (directory : List String) : Qualified (List String) :=
  ((sortedBy id directory).take 10000).mapM validatedOrganizationId

/-- A hint, of which only the product is used once it is validated. -/
structure ProductBundleChangedHint where
  aggregateId : String

structure ConsumedBundleHint where
  productId : String
  organizationsChecked : Nat
  invalidatedDecisionIds : List String
  replacementAttemptIds : List String

/-- How the processing of a hint ends: its result, the tenant whose transaction raised, and the
    tables. -/
structure HintRun where
  result : Qualified ConsumedBundleHint
  raisedIn : Option String
  tables : QualificationDb

/-- The transaction in one tenant. -/
def invalidateIn (organizationId productId : String) (given : Given) (db : QualificationDb) :
    Qualified (BundleInvalidationResult × QualificationDb) := do
  let tenant ← validatedOrganizationId organizationId
  invalidateDecisionsForActiveBundle tenant productId given db

/-- The transactions in the tenants that are left. -/
def invalidateEach (hint : ProductBundleChangedHint) (given : String → Given) :
    List String → ConsumedBundleHint → QualificationDb → HintRun
  | [], consumed, db => ⟨.ok consumed, none, db⟩
  | organizationId :: rest, consumed, db =>
    match invalidateIn organizationId hint.aggregateId (given organizationId) db with
    | .error error => ⟨.error error, some organizationId, db⟩
    | .ok (result, db) => invalidateEach hint given rest { consumed with
        invalidatedDecisionIds := consumed.invalidatedDecisionIds ++ result.invalidatedDecisionIds
        replacementAttemptIds := consumed.replacementAttemptIds ++ result.replacementAttemptIds } db

/-- `ChangefeedHintConsumer`, with the tenants of its settings. -/
structure ChangefeedHintConsumer where
  organizationIds : List String

/-- The tenants that a hint is applied to. -/
def ChangefeedHintConsumer.tenants (consumer : ChangefeedHintConsumer) (ids : List String) :
    List String :=
  sortedBy id (consumer.organizationIds ++ ids).dedup

def ChangefeedHintConsumer.process (consumer : ChangefeedHintConsumer) (directory : List String)
    (hint : ProductBundleChangedHint) (given : String → Given) (db : QualificationDb) : HintRun :=
  match directoryIds directory with
  | .error error => ⟨.error error, none, db⟩
  | .ok ids =>
    let organizationIds := consumer.tenants ids
    invalidateEach hint given organizationIds
      ⟨hint.aggregateId, organizationIds.length, [], []⟩ db

/-! ## The tables of a tenant -/

/-- What invalidations read in one tenant. -/
def ownTables (organizationId : String) (db : QualificationDb) : QualificationDb where
  missions := db.missions.filter (·.organizationId = organizationId)
  attempts := db.attempts.filter (·.organizationId = organizationId)
  decisions := db.decisions.filter (·.organizationId = organizationId)
  decisionDependencies := db.decisionDependencies
  activeBundles := db.activeBundles
  outbox := db.outbox.filter (·.organizationId = organizationId)

section Tenants

variable {organizationId productId : String} {given : Given} {db db' : QualificationDb}

theorem noStale_ownTables :
    NoStale organizationId productId (ownTables organizationId db) ↔
      NoStale organizationId productId db := by
  unfold NoStale ownTables
  simp only [List.mem_filter, decide_eq_true_eq]
  constructor
  · exact fun h d hd horg => h d ⟨hd, horg⟩ horg
  · exact fun h d hd => h d hd.1

theorem attempt?_ownTables (attemptId : String) :
    (ownTables organizationId db).attempt? organizationId attemptId =
      db.attempt? organizationId attemptId := by
  unfold QualificationDb.attempt? ownTables
  rw [List.find?_filter]
  congr 1
  funext a
  simp

theorem mission?_ownTables (missionId : String) :
    (ownTables organizationId db).mission? organizationId missionId =
      db.mission? organizationId missionId := by
  unfold QualificationDb.mission? ownTables
  rw [List.find?_filter]
  congr 1
  funext m
  simp

theorem successor?_ownTables {a : QualificationAttempt}
    (horg : a.organizationId = organizationId) :
    (ownTables organizationId db).successor? a = db.successor? a := by
  subst horg
  unfold QualificationDb.successor? ownTables
  rw [List.find?_filter]
  congr 1
  funext b
  simp

theorem decisionsOn_ownTables :
    decisionsOn organizationId productId (ownTables organizationId db) =
      decisionsOn organizationId productId db := by
  unfold decisionsOn ownTables
  rw [List.filter_filter]
  congr 3
  funext d
  simp +contextual

theorem used_ownTables {key : String} :
    Used organizationId key (ownTables organizationId db) ↔ Used organizationId key db := by
  unfold Used ownTables
  simp only [List.mem_filter, decide_eq_true_eq]
  constructor
  · rintro ⟨e, ⟨he, -⟩, hkeys⟩
    exact ⟨e, he, hkeys⟩
  · rintro ⟨e, he, hkeys⟩
    exact ⟨e, ⟨he, hkeys.1⟩, hkeys⟩

theorem reopenings_ownTables :
    reopenings organizationId productId (ownTables organizationId db) =
      reopenings organizationId productId db := by
  unfold reopenings
  rw [decisionsOn_ownTables]
  congr 1
  funext row
  have hopen : openMission organizationId row.1 (ownTables organizationId db) =
      openMission organizationId row.1 db := by
    unfold openMission
    rw [attempt?_ownTables, mission?_ownTables]
  unfold reopening
  rw [hopen]
  rfl

theorem organization_of_mem_reopenings {r : QualificationAttempt × String}
    (h : r ∈ reopenings organizationId productId db) : r.1.organizationId = organizationId := by
  obtain ⟨row, -, hsome⟩ := List.mem_filterMap.mp h
  obtain ⟨active, mission, -, -, hopen, -⟩ := reopening_eq_some.mp hsome
  exact (QualificationDb.attempt?_eq_some (mem_of_openMission hopen).1).2.1

theorem retirable_ownTables :
    Retirable organizationId productId (ownTables organizationId db) ↔
      Retirable organizationId productId db := by
  constructor
  · rintro ⟨hreplaceable, hunused, hdistinct⟩
    rw [reopenings_ownTables] at hreplaceable hunused hdistinct
    refine ⟨fun r hr => ?_, fun r hr => ?_, hdistinct⟩
    · rw [← successor?_ownTables (organization_of_mem_reopenings hr)]
      exact hreplaceable r hr
    · rw [← used_ownTables]
      exact hunused r hr
  · rintro ⟨hreplaceable, hunused, hdistinct⟩
    constructor
    · rw [reopenings_ownTables]
      intro r hr
      rw [successor?_ownTables (organization_of_mem_reopenings hr)]
      exact hreplaceable r hr
    · rw [reopenings_ownTables]
      intro r hr
      rw [used_ownTables]
      exact hunused r hr
    · rw [reopenings_ownTables]
      exact hdistinct

/-! ## Invalidations beside a tenant -/

/-- What names the rows of missions and of decisions. -/
def rowNames (db : QualificationDb) : List (String × String) × List (String × String) :=
  (db.missions.map (fun m => (m.id, m.organizationId)),
    db.decisions.map (fun d => (d.id, d.organizationId)))

/-- The rows of missions and of decisions have ids of their own. -/
structure DistinctRows (db : QualificationDb) : Prop where
  missions : Table.Keyed (·.id) db.missions
  decisions : Table.Keyed (·.id) db.decisions

/-- The named rows are the same, and so are the tables of every other tenant. -/
structure Beside (organizationId : String) (db db' : QualificationDb) : Prop where
  names : rowNames db' = rowNames db
  others : ∀ other, other ≠ organizationId → ownTables other db' = ownTables other db

theorem Beside.refl (organizationId : String) (db : QualificationDb) :
    Beside organizationId db db :=
  ⟨rfl, fun _ _ => rfl⟩

theorem Beside.trans {db'' : QualificationDb} (h : Beside organizationId db db')
    (h' : Beside organizationId db' db'') : Beside organizationId db db'' :=
  ⟨h'.names.trans h.names, fun other hne => (h'.others other hne).trans (h.others other hne)⟩

theorem DistinctRows.congr (h : DistinctRows db) (hnames : rowNames db' = rowNames db) :
    DistinctRows db' := by
  have hmissions := congrArg (fun x => x.1.map Prod.fst) hnames
  have hdecisions := congrArg (fun x => x.2.map Prod.fst) hnames
  simp only [rowNames, List.map_map] at hmissions hdecisions
  constructor
  · unfold Table.Keyed
    rw [show db'.missions.map (·.id) = db.missions.map (·.id) from hmissions]
    exact h.missions
  · unfold Table.Keyed
    rw [show db'.decisions.map (·.id) = db.decisions.map (·.id) from hdecisions]
    exact h.decisions

theorem beside_retireDecision {d : QualificationDecision} (h : DistinctRows db)
    (hd : ∃ x ∈ db.decisions, x.id = d.id ∧ x.organizationId = organizationId) :
    Beside organizationId db (retireDecision organizationId d db) := by
  constructor
  · exact Prod.ext rfl (Table.map_update (fun _ => rfl))
  · intro other hne
    unfold ownTables retireDecision
    dsimp only
    rw [Table.filter_update_of_not]
    · exact fun _ => rfl
    · intro r hr hid
      obtain ⟨x, hx, hxid, horg⟩ := hd
      rw [h.decisions.eq hr hx (hid.trans hxid.symm), horg]
      exact decide_eq_false (Ne.symm hne)

theorem beside_replacementFor {a b : QualificationAttempt}
    (horg : a.organizationId = organizationId)
    (h : replacementFor organizationId a given db = .ok (b, db')) :
    Beside organizationId db db' := by
  rcases (replacementFor_eq_ok horg).mp h with ⟨-, rfl⟩ | ⟨-, -, -, -, rfl⟩
  · exact Beside.refl organizationId db'
  · refine ⟨rfl, fun other hne => ?_⟩
    unfold ownTables
    dsimp only
    rw [Table.filter_concat_of_not]
    exact decide_eq_false (fun heq => hne (heq.symm.trans horg))

theorem beside_addOutbox {event : OutboxEvent} (horg : event.organizationId = organizationId)
    (h : addOutbox event db = .ok db') : Beside organizationId db db' := by
  obtain ⟨-, rfl⟩ := addOutbox_eq_ok.mp h
  refine ⟨rfl, fun other hne => ?_⟩
  unfold ownTables
  dsimp only
  rw [Table.filter_concat_of_not]
  exact decide_eq_false (fun heq => hne (heq.symm.trans horg))

theorem beside_readyMission {mission : QualificationMission} (h : DistinctRows db)
    (hmission : ∃ x ∈ db.missions, x.id = mission.id ∧ x.organizationId = organizationId) :
    Beside organizationId db (readyMission mission.id db) := by
  constructor
  · exact Prod.ext (Table.map_update (fun _ => rfl)) rfl
  · intro other hne
    unfold ownTables readyMission
    dsimp only
    rw [Table.filter_update_of_not]
    · exact fun _ => rfl
    · intro r hr hid
      obtain ⟨x, hx, hxid, horg⟩ := hmission
      rw [h.missions.eq hr hx (hid.trans hxid.symm), horg]
      exact decide_eq_false (Ne.symm hne)

theorem beside_invalidateDecision {row : QualificationDecision × DecisionDependency}
    {result result' : BundleInvalidationResult} (hdistinct : DistinctRows db)
    (hrow : ∃ x ∈ db.decisions, x.id = row.1.id ∧ x.organizationId = organizationId)
    (h : invalidateDecision organizationId productId given row (result, db) = .ok (result', db')) :
    Beside organizationId db db' := by
  have hretired := beside_retireDecision hdistinct hrow
  rcases invalidateDecision_eq_ok.mp h with ⟨-, -, rfl⟩ |
    ⟨-, ⟨-, rfl, -⟩ | ⟨active, replacement, -, hreopen, -⟩⟩
  · exact Beside.refl organizationId db'
  · exact hretired
  · rcases reopenMission_eq_ok.mp hreopen with ⟨-, -, rfl⟩ | ⟨a, mission, hopen, b, replaced,
      hreplace, houtbox, -⟩
    · exact hretired
    · obtain ⟨hattempt, hmission, -⟩ := mem_of_openMission hopen
      obtain ⟨-, horg, -⟩ := QualificationDb.attempt?_eq_some hattempt
      obtain ⟨hmem, hmorg, -⟩ := QualificationDb.mission?_eq_some hmission
      have hreplaced := hretired.trans (beside_replacementFor horg hreplace)
      have hkept := missions_of_replacementFor horg hreplace
      have hready : Beside organizationId replaced (readyMission mission.id replaced) := by
        refine beside_readyMission (hdistinct.congr hreplaced.names) ⟨mission, ?_, rfl, hmorg⟩
        rw [hkept]
        exact hmem
      exact (hreplaced.trans hready).trans (beside_addOutbox rfl houtbox)

theorem beside_invalidate {result : BundleInvalidationResult} (hdistinct : DistinctRows db)
    (h : invalidateDecisionsForActiveBundle organizationId productId given db =
      .ok (result, db')) : Beside organizationId db db' := by
  have hrelated : rowNames db = rowNames db → Beside organizationId db db' := by
    refine foldlM_related
      (R := fun (done done' : BundleInvalidationResult × QualificationDb) =>
        rowNames done.2 = rowNames db → Beside organizationId done.2 done'.2) ?_ ?_ ?_ h
    · exact fun done _ => Beside.refl organizationId done.2
    · intro x y z hfirst hlater hnames
      have hbeside := hfirst hnames
      exact hbeside.trans (hlater (hbeside.names.trans hnames))
    · rintro ⟨result, current⟩ row hrow ⟨result', next⟩ hround hnames
      obtain ⟨hd, horg, -⟩ := mem_decisionsOn.mp hrow
      refine beside_invalidateDecision (hdistinct.congr hnames) ?_ hround
      -- The row of the decision may have changed in an earlier round, but not its name.
      have hname : (row.1.id, organizationId) ∈ (rowNames current).2 := by
        rw [hnames]
        exact List.mem_map.mpr ⟨row.1, hd, by rw [horg]⟩
      obtain ⟨x, hx, heq⟩ := List.mem_map.mp hname
      exact ⟨x, hx, congrArg Prod.fst heq, congrArg Prod.snd heq⟩
  exact hrelated rfl

theorem drawn_of_invalidate {result : BundleInvalidationResult}
    (h : invalidateDecisionsForActiveBundle organizationId productId given db =
      .ok (result, db')) :
    ∀ a ∈ db'.attempts, a ∈ db.attempts ∨ ∃ name, a.id = "qattempt_" ++ given.uuid name := by
  refine foldlM_related
    (R := fun (done done' : BundleInvalidationResult × QualificationDb) =>
      ∀ a ∈ done'.2.attempts,
        a ∈ done.2.attempts ∨ ∃ name, a.id = "qattempt_" ++ given.uuid name) ?_ ?_ ?_ h
  · exact fun _ a ha => .inl ha
  · intro x y z hfirst hlater a ha
    rcases hlater a ha with ha | hdrawn
    · exact hfirst a ha
    · exact .inr hdrawn
  · rintro ⟨result, db⟩ row - ⟨result', db'⟩ hround
    rcases invalidateDecision_eq_ok.mp hround with ⟨-, -, rfl⟩ |
      ⟨-, ⟨-, rfl, -⟩ | ⟨active, replacement, -, hreopen, -⟩⟩
    · exact fun a ha => .inl ha
    · exact fun a ha => .inl ha
    · rcases reopenMission_eq_ok.mp hreopen with ⟨-, -, rfl⟩ | ⟨a, mission, hopen, b, replaced,
        hreplace, houtbox, -⟩
      · exact fun a ha => .inl ha
      · obtain ⟨-, horg, -⟩ := QualificationDb.attempt?_eq_some (mem_of_openMission hopen).1
        obtain ⟨-, rfl⟩ := addOutbox_eq_ok.mp houtbox
        rcases (replacementFor_eq_ok horg).mp hreplace with ⟨-, rfl⟩ | ⟨-, -, -, -, rfl⟩
        · exact fun a ha => .inl ha
        · intro c hc
          rcases List.mem_append.mp hc with hc | hc
          · exact .inl hc
          · rw [List.mem_singleton.mp hc]
            exact .inr ⟨a.id, rfl⟩

end Tenants

/-! ## Hints -/

/-- What the transactions of a hint draw is new, and no two of them draw the same. -/
structure FreshDraws (given : String → Given) (db : QualificationDb) : Prop where
  apart : ∀ organizationId other name name', (given organizationId).uuid name =
    (given other).uuid name' → organizationId = other ∧ name = name'
  attempts : ∀ organizationId name, ∀ a ∈ db.attempts,
    a.id ≠ "qattempt_" ++ (given organizationId).uuid name

/-- A tenant's invalidation of a product returns. -/
structure Serves (productId organizationId : String) (db : QualificationDb) : Prop where
  valid : validatedOrganizationId organizationId = .ok organizationId
  retirable : Retirable organizationId productId db

/-- No tenant but one whose own transaction raised has a stale decision that is current. -/
def Isolated (productId : String) (run : HintRun) : Prop :=
  ∀ organizationId, run.raisedIn ≠ some organizationId →
    NoStale organizationId productId run.tables

/-- A tenant gets its turn: the directory can be read, and every tenant before it is served. -/
def ChangefeedHintConsumer.Reaches (consumer : ChangefeedHintConsumer) (directory : List String)
    (productId organizationId : String) (db : QualificationDb) : Prop :=
  ∃ ids, directoryIds directory = .ok ids ∧
    ∃ before later, consumer.tenants ids = before ++ organizationId :: later ∧
      ∀ x ∈ before, Serves productId x db

section Hints

variable {rt : Runtime} {given : String → Given} {hint : ProductBundleChangedHint}

theorem FreshDraws.freshUuids {db : QualificationDb} (h : FreshDraws given db)
    (organizationId : String) : FreshUuids (given organizationId) db :=
  ⟨fun _ _ heq => (h.apart _ _ _ _ heq).2, h.attempts organizationId⟩

theorem validatedOrganizationId_eq_ok {organizationId tenant : String}
    (h : validatedOrganizationId organizationId = .ok tenant) : tenant = organizationId := by
  unfold validatedOrganizationId at h
  split at h
  · cases h
    rfl
  · cases h

theorem invalidateIn_eq_ok {organizationId productId : String} {given : Given}
    {db db' : QualificationDb} {result : BundleInvalidationResult} :
    invalidateIn organizationId productId given db = .ok (result, db') ↔
      validatedOrganizationId organizationId = .ok organizationId ∧
        invalidateDecisionsForActiveBundle organizationId productId given db = .ok (result, db') := by
  unfold invalidateIn
  rw [bind_eq_ok]
  constructor
  · rintro ⟨tenant, hvalid, h⟩
    obtain rfl := validatedOrganizationId_eq_ok hvalid
    exact ⟨hvalid, h⟩
  · rintro ⟨hvalid, h⟩
    exact ⟨organizationId, hvalid, h⟩

theorem serves_iff {organizationId productId : String} {given : Given} {ts : List Submitted}
    (hfresh : FreshUuids given (tablesAfter rt ts)) :
    Serves productId organizationId (tablesAfter rt ts) ↔
      ∃ result next, invalidateIn organizationId productId given (tablesAfter rt ts) =
        .ok (result, next) := by
  simp only [invalidateIn_eq_ok, exists_and_left]
  rw [invalidate_returns_iff (sound_tablesAfter rt ts) hfresh]
  exact ⟨fun h => ⟨h.valid, h.retirable⟩, fun h => ⟨h.1, h.2⟩⟩

/-- The tenants up to the first one that cannot be served are served, and the others keep their
    tables. -/
structure ServesUpTo (productId : String) (db : QualificationDb) (served rest : List String)
    (run : HintRun) : Prop where
  serves : ∀ o ∈ served, Serves productId o db
  retired : ∀ o ∈ served, NoStale o productId run.tables
  others : ∀ o, o ∉ served → ownTables o run.tables = ownTables o db
  ends : run.raisedIn = rest.head?
  blocked : ∀ o ∈ rest.head?, ¬ Serves productId o db

theorem serves_congr {organizationId productId : String} {db db' : QualificationDb}
    (h : ownTables organizationId db' = ownTables organizationId db) :
    Serves productId organizationId db' ↔ Serves productId organizationId db := by
  have hretirable : Retirable organizationId productId db' ↔
      Retirable organizationId productId db := by
    rw [← retirable_ownTables, h, retirable_ownTables]
  exact ⟨fun hs => ⟨hs.valid, hretirable.mp hs.retirable⟩,
    fun hs => ⟨hs.valid, hretirable.mpr hs.retirable⟩⟩

theorem noStale_congr {organizationId productId : String} {db db' : QualificationDb}
    (h : ownTables organizationId db' = ownTables organizationId db) :
    NoStale organizationId productId db' ↔ NoStale organizationId productId db := by
  rw [← noStale_ownTables, h, noStale_ownTables]

theorem invalidateEach_serves {organizationIds : List String} {ts : List Submitted}
    (consumed : ConsumedBundleHint) (hnodup : organizationIds.Nodup)
    (hfresh : ∀ o ∈ organizationIds, FreshUuids (given o) (tablesAfter rt ts))
    (hapart : ∀ o o' name name', (given o).uuid name = (given o').uuid name' → o = o') :
    ∃ served rest, organizationIds = served ++ rest ∧
      ServesUpTo hint.aggregateId (tablesAfter rt ts) served rest
        (invalidateEach hint given organizationIds consumed (tablesAfter rt ts)) := by
  induction organizationIds generalizing ts consumed with
  | nil => exact ⟨[], [], rfl, nofun, nofun, fun _ _ => rfl, rfl, nofun⟩
  | cons o os ih =>
    obtain ⟨ho, hnodup⟩ := List.nodup_cons.mp hnodup
    have hserves : Serves hint.aggregateId o (tablesAfter rt ts) ↔ _ :=
      serves_iff (hfresh o List.mem_cons_self)
    cases hturn : invalidateIn o hint.aggregateId (given o) (tablesAfter rt ts) with
    | error e =>
      have hrun : invalidateEach hint given (o :: os) consumed (tablesAfter rt ts) =
          ⟨.error e, some o, tablesAfter rt ts⟩ := by
        rw [invalidateEach, hturn]
      rw [hrun]
      refine ⟨[], o :: os, rfl, nofun, nofun, fun _ _ => rfl, rfl, ?_⟩
      rintro x ⟨⟩ hx
      obtain ⟨result, next, hreturns⟩ := hserves.mp hx
      rw [hturn] at hreturns
      cases hreturns
    | ok r =>
      obtain ⟨result, next⟩ := r
      have hinvalidate := (invalidateIn_eq_ok.mp hturn).2
      have hdistinct : DistinctRows (tablesAfter rt ts) :=
        ⟨keyed_missions rt ts, (sound_tablesAfter rt ts).decisions⟩
      have hbeside := beside_invalidate hdistinct hinvalidate
      -- The state after the turn is that after one more transaction.
      have hnext : tablesAfter rt (ts ++ [⟨o, .invalidate hint.aggregateId, given o⟩]) = next :=
        tablesAfter_of_ok rt (outcome_eq_ok.mpr ⟨result, hinvalidate, rfl⟩)
      rw [← hnext] at hbeside hinvalidate
      have hfresh' : ∀ x ∈ os, FreshUuids (given x)
          (tablesAfter rt (ts ++ [⟨o, .invalidate hint.aggregateId, given o⟩])) := by
        intro x hx
        have hbefore := hfresh x (List.mem_cons_of_mem o hx)
        refine ⟨hbefore.injective, fun name a ha hid => ?_⟩
        rcases drawn_of_invalidate hinvalidate a ha with ha | ⟨name', hid'⟩
        · exact hbefore.attempts name a ha hid
        · have hsame := hapart o x name' name (String.append_right_inj _ |>.mp (hid'.symm.trans hid))
          exact ho (hsame ▸ hx)
      have hrun : invalidateEach hint given (o :: os) consumed (tablesAfter rt ts) =
          invalidateEach hint given os { consumed with
            invalidatedDecisionIds := consumed.invalidatedDecisionIds ++ result.invalidatedDecisionIds
            replacementAttemptIds :=
              consumed.replacementAttemptIds ++ result.replacementAttemptIds }
            (tablesAfter rt (ts ++ [⟨o, .invalidate hint.aggregateId, given o⟩])) := by
        rw [invalidateEach, hturn, hnext]
      rw [hrun]
      obtain ⟨served, rest, hos, hspec⟩ := ih _ hnodup hfresh'
      have hother : ∀ x ∈ served ++ rest, x ≠ o := by
        rintro x hx rfl
        exact ho (hos ▸ hx)
      have hkept : ∀ x ∈ served ++ rest, Serves hint.aggregateId x (tablesAfter rt
          (ts ++ [⟨o, .invalidate hint.aggregateId, given o⟩])) ↔
          Serves hint.aggregateId x (tablesAfter rt ts) :=
        fun x hx => serves_congr (hbeside.others x (hother x hx))
      refine ⟨o :: served, rest, congrArg (o :: ·) hos, ?_, ?_, ?_, hspec.ends, ?_⟩
      · intro x hx
        rcases List.mem_cons.mp hx with rfl | hx
        · exact hserves.mpr ⟨result, next, hturn⟩
        · exact (hkept x (List.mem_append_left _ hx)).mp (hspec.serves x hx)
      · intro x hx
        rcases List.mem_cons.mp hx with rfl | hx
        · have hlater := hspec.others x (fun hx => ho (hos ▸ List.mem_append_left _ hx))
          exact (noStale_congr hlater).mpr (noStale_of_invalidate hinvalidate)
        · exact hspec.retired x hx
      · intro x hx
        rw [List.mem_cons, not_or] at hx
        exact (hspec.others x hx.2).trans (hbeside.others x hx.1)
      · intro x hx hserved
        have hmem := List.mem_append_right served (List.mem_of_head? hx)
        exact hspec.blocked x hx ((hkept x hmem).mpr hserved)

theorem nodup_tenants (consumer : ChangefeedHintConsumer) (ids : List String) :
    (consumer.tenants ids).Nodup :=
  (sortedBy_perm _ _).nodup_iff.mpr (List.nodup_dedup _)

/-- Where some tenants are served up to the first one that cannot be, no tenant is kept on stale
    decisions by another exactly when each with stale decisions gets its turn. -/
theorem ServesUpTo.isolated_iff {productId : String} {db : QualificationDb}
    {served rest : List String} {run : HintRun} (h : ServesUpTo productId db served rest run)
    (hnodup : (served ++ rest).Nodup) :
    Isolated productId run ↔ ∀ o, ¬ NoStale o productId db →
      ∃ before later, served ++ rest = before ++ o :: later ∧ ∀ x ∈ before, Serves productId x db := by
  constructor
  · intro hisolated o hstale
    by_cases hserved : o ∈ served
    · obtain ⟨before, later, rfl⟩ := List.append_of_mem hserved
      refine ⟨before, later ++ rest, by simp, fun x hx => h.serves x (List.mem_append_left _ hx)⟩
    · -- A tenant that was not served is still stale, so that it is the one that raised.
      have hraised : run.raisedIn = some o := by
        by_contra hne
        exact hstale ((noStale_congr (h.others o hserved)).mp (hisolated o hne))
      rw [h.ends, List.head?_eq_some_iff] at hraised
      obtain ⟨later, rfl⟩ := hraised
      exact ⟨served, later, rfl, h.serves⟩
  · intro hreaches o hraised
    by_cases hserved : o ∈ served
    · exact h.retired o hserved
    · rw [noStale_congr (h.others o hserved)]
      by_contra hstale
      obtain ⟨before, later, heq, hbefore⟩ := hreaches o hstale
      rcases List.append_eq_append_iff.mp heq with ⟨c, rfl, hrest⟩ | ⟨c, rfl, hlater⟩
      · cases c with
        | nil =>
          rw [List.nil_append] at hrest
          exact hraised (by rw [h.ends, hrest]; rfl)
        | cons r c =>
          rw [List.cons_append] at hrest
          exact h.blocked r (by rw [hrest]; rfl) (hbefore r (by simp))
      · cases c with
        | nil =>
          rw [List.nil_append] at hlater
          exact hraised (by rw [h.ends, ← hlater]; rfl)
        | cons r c =>
          rw [List.cons_append, List.cons.injEq] at hlater
          exact hserved (by rw [hlater.1]; simp)

end Hints

/-! ## Runs -/

/-- After any transactions, a hint leaves no tenant on stale decisions, but one whose own
    transaction raised, exactly when every tenant with stale decisions gets its turn. -/
theorem hint_isolated_iff (rt : Runtime) (ts : List Submitted) (consumer : ChangefeedHintConsumer)
    (directory : List String) (hint : ProductBundleChangedHint) (given : String → Given)
    (hfresh : FreshDraws given (tablesAfter rt ts)) :
    Isolated hint.aggregateId (consumer.process directory hint given (tablesAfter rt ts)) ↔
      ∀ organizationId, ¬ NoStale organizationId hint.aggregateId (tablesAfter rt ts) →
        consumer.Reaches directory hint.aggregateId organizationId (tablesAfter rt ts) := by
  unfold ChangefeedHintConsumer.process ChangefeedHintConsumer.Reaches
  cases hdirectory : directoryIds directory with
  | error e =>
    constructor
    · intro hisolated organizationId hstale
      exact absurd (hisolated organizationId nofun) hstale
    · intro hreaches organizationId _
      by_contra hstale
      obtain ⟨ids, hids, -⟩ := hreaches organizationId hstale
      cases hids
  | ok ids =>
    have hnodup := nodup_tenants consumer ids
    have hserves : ∃ served rest, consumer.tenants ids = served ++ rest ∧
        ServesUpTo hint.aggregateId (tablesAfter rt ts) served rest
          (invalidateEach hint given (consumer.tenants ids)
            ⟨hint.aggregateId, (consumer.tenants ids).length, [], []⟩ (tablesAfter rt ts)) :=
      invalidateEach_serves _ hnodup (fun o _ => hfresh.freshUuids o)
        (fun o o' name name' heq => (hfresh.apart _ _ _ _ heq).1)
    obtain ⟨served, rest, htenants, hspec⟩ := hserves
    rw [htenants] at hnodup
    rw [hspec.isolated_iff hnodup]
    simp only [Except.ok.injEq, exists_eq_left', htenants]

namespace Sample

/-- Draws that tell their tenant, whose length comes first. -/
def drawn (organizationId : String) : Given where
  now := 6
  uuid := fun name => String.ofList (List.replicate organizationId.length 'x' ++
    'y' :: (organizationId.toList ++ name.toList))

theorem replicate_append_inj {α : Type} {x y : α} (hne : x ≠ y) {n m : Nat} {l l' : List α}
    (h : List.replicate n x ++ y :: l = List.replicate m x ++ y :: l') : n = m ∧ l = l' := by
  induction n generalizing m with
  | zero =>
    cases m with
    | zero => exact ⟨rfl, (List.cons.inj h).2⟩
    | succ m => exact absurd (List.cons.inj h).1.symm hne
  | succ n ih =>
    cases m with
    | zero => exact absurd (List.cons.inj h).1 hne
    | succ m =>
      obtain ⟨hn, hl⟩ := ih (List.cons.inj h).2
      exact ⟨congrArg (· + 1) hn, hl⟩

theorem freshDraws_drawn {db : QualificationDb}
    (h : ∀ a ∈ db.attempts, a.id.toList[9]? ≠ some 'x' ∧ a.id.toList[9]? ≠ some 'y') :
    FreshDraws drawn db where
  apart := by
    intro o o' name name' heq
    obtain ⟨hlength, hlist⟩ := replicate_append_inj (by decide) (String.ofList_injective heq)
    obtain ⟨ho, hname⟩ := List.append_inj hlist hlength
    exact ⟨String.toList_injective ho, String.toList_injective hname⟩
  attempts := by
    intro o name a ha hid
    have hletter : ("qattempt_" ++ (drawn o).uuid name).toList[9]? = some 'x' ∨
        ("qattempt_" ++ (drawn o).uuid name).toList[9]? = some 'y' := by
      have hbegins : ("qattempt_" ++ (drawn o).uuid name).toList[9]? =
          (List.replicate o.length 'x' ++ 'y' :: (o.toList ++ name.toList))[0]? := by
        have htext : ((drawn o).uuid name).toList =
            List.replicate o.length 'x' ++ 'y' :: (o.toList ++ name.toList) :=
          String.toList_ofList
        rw [String.toList_append, htext, List.getElem?_append_right (by decide)]
        rfl
      rw [hbegins]
      cases o.length with
      | zero => exact .inr rfl
      | succ n => exact .inl rfl
    rw [← hid] at hletter
    exact hletter.elim (h a ha).1 (h a ha).2

/-- Two buyers decided over the bundle that is replaced then, and the chain of the first one is
    exhausted. -/
def starved : List Submitted :=
  published ++ mission "buyer" 0 ++ mission "other" 7 ++ exhaustedChain "buyer" (missionId 0) ++
    evaluated "other" (missionId 7) 4 [] first ++ activated 5 second

end Sample

open Sample

theorem exhausted_tenant_starves_others :
    FreshDraws drawn (tablesAfter .ascii starved) ∧
      ¬ Isolated "crm" (ChangefeedHintConsumer.process ⟨[]⟩ ["buyer", "other", "seller"] ⟨"crm"⟩
        drawn (tablesAfter .ascii starved)) := by
  constructor
  · exact freshDraws_drawn (by decide +kernel)
  · intro hisolated
    have hother := hisolated "other" (by decide +kernel)
    revert hother
    decide +kernel

/-- A tenant whose decision has a replacement to come is served before the other. -/
theorem hint_isolated_iff_sample :
    Isolated "crm" (ChangefeedHintConsumer.process ⟨[]⟩ ["buyer", "seller"] ⟨"crm"⟩
      drawn (tablesAfter .ascii replaced)) := by
  have hfresh : FreshDraws drawn (tablesAfter .ascii replaced) :=
    freshDraws_drawn (by decide +kernel)
  refine (hint_isolated_iff .ascii replaced ⟨[]⟩ ["buyer", "seller"] ⟨"crm"⟩ drawn hfresh).mpr
    (fun organizationId hstale => ?_)
  -- The only tenant with decisions is the first one.
  have hbuyer : organizationId = "buyer" := by
    by_contra hne
    apply hstale
    intro d hd horg
    have hall : ∀ d ∈ (tablesAfter .ascii replaced).decisions, d.organizationId = "buyer" := by
      decide +kernel
    exact absurd (horg.symm.trans (hall d hd)) hne
  subst hbuyer
  exact ⟨["buyer", "seller"], by decide +kernel, [], ["seller"], by decide +kernel, nofun⟩

end SiraWorker
