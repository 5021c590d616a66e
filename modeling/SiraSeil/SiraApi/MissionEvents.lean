-- SUMMARY: The event feed of a mission: following its cursors from the start reads every event of the mission once, in order.
import SiraSeil.Library.Paging
import SiraSeil.SiraWorker.OutboxDispatcher

/-!
# Mission events

`mission_events` of `services/api/sira_api/qualification_service.py`. A page is the
first rows of the outbox that concern the mission, ordered by time and id, behind the
row that the cursor names. Rows of one time are told apart by their ids.
-/

namespace SiraApi

open Domain Persistence Sorting SiraWorker Paging

/-- `aggregate_ids` -/
def aggregateIds (db : QualificationDb) (organizationId missionId : String) : List String :=
  missionId ::
    ((db.attempts.filter (fun a =>
        a.organizationId = organizationId ∧ a.missionId = missionId)).map (·.id) ++
      (db.decisions.filter (fun d =>
        d.organizationId = organizationId ∧ d.missionId = missionId)).map (·.id) ++
      (db.engagements.filter (fun e =>
        e.buyerOrganizationId = organizationId ∧ e.missionId = missionId)).map (·.id))

structure EventView where
  id : String
  type : String
  aggregateType : String
  aggregateId : String
  payload : List (String × Value)
  occurredAt : String
  published : Bool

def eventView (row : OutboxRow) : EventView where
  id := row.id
  type := row.eventType
  aggregateType := row.aggregateType
  aggregateId := row.aggregateId
  payload := row.payload
  occurredAt := String.ofList (Rfc8785.datetimeText row.occurredAt)
  published := row.publishedAt.isSome

/-- The row is of an aggregate of the mission. -/
def Concerns (db : QualificationDb) (organizationId missionId : String) (row : OutboxRow) : Prop :=
  row.organizationId = organizationId ∧
    row.aggregateId ∈ aggregateIds db organizationId missionId

instance (db : QualificationDb) (organizationId missionId : String) (row : OutboxRow) :
    Decidable (Concerns db organizationId missionId row) :=
  inferInstanceAs (Decidable (_ ∧ _))

/-- The row comes after the one of the cursor. -/
def Behind (cursor row : OutboxRow) : Prop :=
  cursor.occurredAt < row.occurredAt ∨
    (row.occurredAt = cursor.occurredAt ∧ cursor.id < row.id)

instance (cursor row : OutboxRow) : Decidable (Behind cursor row) :=
  inferInstanceAs (Decidable (_ ∨ _))

/-- `order_by(OutboxEvent.occurred_at, OutboxEvent.id)` -/
def inOrder (rows : List OutboxRow) : List OutboxRow :=
  sortedBy (fun (r : OutboxRow) => r.toOutboxEnvelope.place) rows

/-- `mission_events` -/
def missionEvents (db : QualificationDb) (rows : List OutboxRow)
    (organizationId missionId : String) (limit : Nat) (after : Option String) :
    Qualified (Page EventView String) := do
  if (db.mission? organizationId missionId).isNone then
    throw (.api "QUALIFICATION_MISSION_NOT_FOUND" "Mission was not found." 404)
  let concerned := rows.filter (fun r => Concerns db organizationId missionId r)
  -- an empty cursor is none
  match after.filter (· ≠ "") with
  | none => return pageOf eventView (·.id) limit (inOrder concerned)
  | some cursor =>
    match rows.find? (fun r => r.organizationId = organizationId ∧ r.id = cursor) with
    | none => throw (.api "EVENT_CURSOR_NOT_FOUND" "Event cursor was not found." 404)
    | some event =>
      return pageOf eventView (·.id) limit (inOrder (concerned.filter (fun r => Behind event r)))

/-! ## The order of the feed -/

theorem behind_iff {cursor row : OutboxRow} :
    Behind cursor row ↔ cursor.toOutboxEnvelope.place < row.toOutboxEnvelope.place := by
  unfold Behind OutboxEnvelope.place
  rw [Prod.Lex.toLex_lt_toLex]
  exact or_congr Iff.rfl (and_congr_left' eq_comm)

section Feed

variable {rows : List OutboxRow}

theorem keyOn_place (hids : Table.Keyed (fun (r : OutboxRow) => r.id) rows) :
    KeyOn (fun (r : OutboxRow) => r.toOutboxEnvelope.place) rows := by
  intro a ha b hb hplace
  have hid : a.id = b.id := congrArg (fun place => (ofLex place).2) hplace
  exact hids.eq ha hb hid

theorem inOrder_pairwise (hids : Table.Keyed (fun (r : OutboxRow) => r.id) rows) :
    (inOrder rows).Pairwise (fun a b => a.toOutboxEnvelope.place < b.toOutboxEnvelope.place) := by
  have hdistinct : (inOrder rows).Pairwise (fun a b => a.id ≠ b.id) :=
    List.pairwise_map.mp
      (((sortedBy_perm _ rows).map (fun (r : OutboxRow) => r.id)).nodup_iff.mpr hids)
  refine ((sortedBy_pairwise _ rows).and hdistinct).imp fun h => ?_
  refine lt_of_le_of_ne h.1 fun hplace => h.2 ?_
  exact congrArg (fun place => (ofLex place).2) hplace

theorem inOrder_filter (hids : Table.Keyed (fun (r : OutboxRow) => r.id) rows) (p : OutboxRow → Bool) :
    inOrder (rows.filter p) = (inOrder rows).filter p :=
  (filter_sortedBy (keyOn_place hids) p).symm

end Feed

/-! ## Serving the feed -/

section Serving

variable {db : QualificationDb} {rows : List OutboxRow} {organizationId missionId : String}

/-- The events of a mission, in their order -/
def feed (db : QualificationDb) (rows : List OutboxRow) (organizationId missionId : String) :
    List OutboxRow :=
  inOrder (rows.filter (fun r => Concerns db organizationId missionId r))

theorem mem_feed {row : OutboxRow} :
    row ∈ feed db rows organizationId missionId ↔
      row ∈ rows ∧ Concerns db organizationId missionId row := by
  simp [feed, inOrder]

theorem serves_missionEvents (hids : Table.Keyed (fun (r : OutboxRow) => r.id) rows)
    (hnamed : ∀ row ∈ rows, row.id ≠ "") (hmission : (db.mission? organizationId missionId).isSome)
    (limit : Nat) :
    Serves (missionEvents db rows organizationId missionId limit) eventView (·.id) limit
      (feed db rows organizationId missionId) := by
  intro seen rest hcut
  have hconcerned := hids.filter (fun r => Concerns db organizationId missionId r)
  have hfound : ¬ (db.mission? organizationId missionId).isNone = true := by
    simpa [Option.isSome_iff_ne_none] using hmission
  unfold missionEvents
  rw [if_neg hfound]
  cases hlast : seen.getLast? with
  | none =>
    obtain rfl := List.getLast?_eq_none_iff.mp hlast
    have hfeed : inOrder (rows.filter fun r => Concerns db organizationId missionId r) = rest := hcut
    simp only [Option.map_none, Option.filter_none, hfeed]
    rfl
  | some last =>
    have hmem : last ∈ feed db rows organizationId missionId :=
      hcut ▸ List.mem_append_left rest (List.mem_of_getLast? hlast)
    obtain ⟨hrow, horganization, -⟩ := mem_feed.mp hmem
    have hcursor : rows.find? (fun r => r.organizationId = organizationId ∧ r.id = last.id) =
        some last := by
      refine hids.find?_eq hrow (decide_eq_true ⟨horganization, rfl⟩) fun r _ hr => ?_
      exact (of_decide_eq_true hr).2
    have hsorted := inOrder_pairwise hconcerned
    have hrest : inOrder ((rows.filter fun r => Concerns db organizationId missionId r).filter
        (fun r => Behind last r)) = rest := by
      rw [inOrder_filter hconcerned]
      simp only [behind_iff]
      have hfeed : inOrder (rows.filter fun r => Concerns db organizationId missionId r) =
        seen ++ rest := hcut
      rw [hfeed] at hsorted ⊢
      exact filter_behind hsorted hlast
    have htruthy : (some last.id).filter (· ≠ "") = some last.id := by
      simp [Option.filter, hnamed last hrow]
    simp only [Option.map_some, htruthy, hcursor, hrest]
    rfl

theorem id_of_validated {envelope envelope' : OutboxEnvelope}
    (h : envelope.validated = .ok envelope') : envelope.id ≠ "" := by
  intro hid
  unfold OutboxEnvelope.validated at h
  split at h
  · cases h
  · split at h
    · cases h
    · next hfilled => exact hfilled (List.any_eq_true.mpr ⟨"", by simp [OutboxEnvelope.required, hid],
        by decide⟩)

/-- The events are those of the mission, each once, in the order of their times and ids. -/
structure IsFeed (db : QualificationDb) (rows : List OutboxRow) (organizationId missionId : String)
    (events : List OutboxRow) : Prop where
  events_iff : ∀ row, row ∈ events ↔ row ∈ rows ∧ Concerns db organizationId missionId row
  ordered : events.Pairwise (fun a b =>
    a.occurredAt < b.occurredAt ∨ (a.occurredAt = b.occurredAt ∧ a.id < b.id))

theorem isFeed_feed (hids : Table.Keyed (fun (r : OutboxRow) => r.id) rows) :
    IsFeed db rows organizationId missionId (feed db rows organizationId missionId) := by
  refine ⟨fun row => mem_feed, (inOrder_pairwise (hids.filter _)).imp fun h => ?_⟩
  exact (behind_iff.mpr h).imp id (fun h => ⟨h.1.symm, h.2⟩)

/-- In every outbox that transactions and dispatchers leave, following the cursors of a
    mission from the start comes to an end and reads each of its events once, in order. -/
theorem mission_events_once (run : OutboxRun) (db : QualificationDb)
    (organizationId missionId : String) {limit : Nat} (hlimit : 1 ≤ limit)
    (hmission : (db.mission? organizationId missionId).isSome) :
    ∃ events, IsFeed db (outboxAfter run).store.rows organizationId missionId events ∧
      ∀ fuel, events.length < fuel →
        follow (missionEvents db (outboxAfter run).store.rows organizationId missionId limit)
          fuel none = .ok (some (events.map eventView)) := by
  have hsound := (sound_outboxAfter run).1
  refine ⟨feed db (outboxAfter run).store.rows organizationId missionId, isFeed_feed hsound.ids, ?_⟩
  intro fuel hfuel
  exact follow_all (serves_missionEvents hsound.ids
    (fun row hrow => id_of_validated (hsound.valid row hrow)) hmission limit) hlimit hfuel

end Serving

namespace Sample

def tiedEnvelope (id : String) : OutboxEnvelope where
  id := id
  organizationId := "buyer"
  aggregateType := "QUALIFICATION_MISSION"
  aggregateId := "qmission"
  eventType := "QUALIFICATION_MISSION_READY"
  eventKey := "ready:" ++ id
  payload := []
  occurredAt := 0

theorem tiedEnvelope_complete :
    (∀ value ∈ (tiedEnvelope "out_a").required, strip value ≠ "") ∧
      ∀ value ∈ (tiedEnvelope "out_b").required, strip value ≠ "" := by
  decide

/-- Two events of one time are committed. -/
def tiedRun : OutboxRun :=
  [.start (.commit "buyer" [⟨tiedEnvelope "out_b", tiedEnvelope_complete.2⟩,
      ⟨tiedEnvelope "out_a", tiedEnvelope_complete.1⟩]) ⟨0, .acknowledged⟩,
    .advance 0 ⟨0, .acknowledged⟩]

def feedDb : QualificationDb where
  missions := [⟨"qmission", "buyer", "buyerctx", "", "reqbrief", "", "policy", "", "trace", .ready⟩]

end Sample

theorem mission_events_once_sample :
    ∃ events, IsFeed Sample.feedDb (outboxAfter Sample.tiedRun).store.rows "buyer" "qmission" events ∧
      ∀ fuel, events.length < fuel →
        follow (missionEvents Sample.feedDb (outboxAfter Sample.tiedRun).store.rows "buyer"
          "qmission" 1) fuel none = .ok (some (events.map eventView)) :=
  mission_events_once Sample.tiedRun Sample.feedDb "buyer" "qmission" (by decide) (by decide)

end SiraApi
