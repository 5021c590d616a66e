-- SUMMARY: The dispatcher from the outbox to the queue: committed events are published before they are marked, once marked by one dispatcher, and loaded again until then.
import Mathlib.Data.List.Flatten
import SiraSeil.Library.Interleaving
import SiraSeil.SiraWorker.ChangefeedConsumer

/-!
# The outbox dispatcher

`services/worker/sira_worker/outbox_dispatcher.py`. A dispatcher loads a batch of unpublished
events in one transaction, then publishes them one by one and marks each in a transaction of
its own. The queue is outside: it may take an envelope and fail to say so. Transactions that
commit events and any number of dispatchers take their steps in any order, and a dispatcher
that crashes takes no more.
-/

namespace SiraWorker

open Domain Persistence Sorting Raising

/-! ## Events and envelopes -/

structure OutboxEnvelope extends OutboxEvent where
  id : String
  /-- `occurred_at`, of which the envelope has the rendering. -/
  occurredAt : Int

/-- A row of `outbox_events`. -/
structure OutboxRow extends OutboxEnvelope where
  publishedAt : Option Int

/-- The fields that an envelope may not have blank. -/
def OutboxEnvelope.required (envelope : OutboxEnvelope) : List String :=
  [envelope.id, envelope.aggregateType, envelope.aggregateId, envelope.eventType,
    envelope.eventKey]

/-- `OutboxEnvelope.__post_init__` -/
def OutboxEnvelope.validated (envelope : OutboxEnvelope) : Qualified OutboxEnvelope :=
  if (validatedOrganizationId envelope.organizationId).isOk = false then
    .error (.valueError "organization_id is invalid")
  else if envelope.required.any (fun value => strip value = "") then
    .error (.valueError "outbox envelope fields must not be empty")
  else .ok envelope

/-- What a transaction adds: every writer of events passes generated ids and its own literal
    types and key prefixes, so none of the fields is blank. -/
structure EventDraft where
  envelope : OutboxEnvelope
  complete : ∀ value ∈ envelope.required, strip value ≠ ""

/-- The outbox, what the queue has taken, and the ids that dispatchers counted as published. -/
structure Outbox where
  rows : List OutboxRow := []
  queue : List OutboxEnvelope := []
  counted : List String := []

/-! ## Transactions -/

/-- An event is inserted under the tenant of its transaction. -/
def insertEvent (organizationId : String) (rows : List OutboxRow) (draft : EventDraft) :
    Qualified (List OutboxRow) := do
  constrain (rows.any (fun r => r.id = draft.envelope.id)) "outbox_events_pkey"
  constrain (rows.any (fun r =>
    r.organizationId = organizationId ∧ r.eventKey = draft.envelope.eventKey))
    "uq_outbox_event_key"
  return rows ++ [{ draft.envelope with
    organizationId := organizationId
    publishedAt := none }]

/-- A transaction of a tenant that commits events. -/
def commitEvents (organizationId : String) (drafts : List EventDraft) (outbox : Outbox) :
    Qualified Outbox := do
  let tenant ← validatedOrganizationId organizationId
  let rows ← drafts.foldlM (insertEvent tenant) outbox.rows
  return { outbox with rows := rows }

/-- The order in which events are loaded. -/
def OutboxEnvelope.place (envelope : OutboxEnvelope) : Int ×ₗ String :=
  toLex (envelope.occurredAt, envelope.id)

/-- What a load selects; without event types, it selects all of them. -/
def Selected (organizationId : String) (eventTypes : List String) (row : OutboxRow) : Prop :=
  row.organizationId = organizationId ∧ row.publishedAt = none ∧
    (eventTypes = [] ∨ row.eventType ∈ eventTypes)

instance (organizationId : String) (eventTypes : List String) (row : OutboxRow) :
    Decidable (Selected organizationId eventTypes row) :=
  inferInstanceAs (Decidable (_ ∧ _))

/-- The first of the selected rows. -/
def batch (organizationId : String) (limit : Nat) (eventTypes : List String) (outbox : Outbox) :
    List OutboxRow :=
  (sortedBy (fun (r : OutboxRow) => r.toOutboxEnvelope.place)
    (outbox.rows.filter (fun r => Selected organizationId eventTypes r))).take limit

def loadUnpublished (organizationId : String) (limit : Int) (eventTypes : List String)
    (outbox : Outbox) : Qualified (List OutboxEnvelope) := do
  if limit < 1 ∨ limit > 100 then
    throw (.valueError "outbox batch limit must be between 1 and 100")
  let tenant ← validatedOrganizationId organizationId
  (batch tenant limit.toNat eventTypes outbox).mapM (fun r => r.toOutboxEnvelope.validated)

/-- What `mark_published` compares. -/
def Marks (envelope : OutboxEnvelope) (row : OutboxRow) : Prop :=
  row.organizationId = envelope.organizationId ∧ row.id = envelope.id ∧
    row.eventKey = envelope.eventKey ∧ row.publishedAt = none

instance (envelope : OutboxEnvelope) (row : OutboxRow) : Decidable (Marks envelope row) :=
  inferInstanceAs (Decidable (_ ∧ _))

/-- `mark_published`, and whether it marked a row. -/
def markPublished (envelope : OutboxEnvelope) (publishedAt : Int) (outbox : Outbox) :
    Bool × Outbox :=
  (outbox.rows.any (fun r => Marks envelope r), { outbox with
    rows := outbox.rows.map (fun r =>
      if Marks envelope r then { r with publishedAt := some publishedAt } else r) })

/-! ## Dispatchers -/

structure DispatchResult where
  attempted : Nat
  published : Nat
  eventIds : List String

/-- Where a transaction or a dispatcher stands. -/
inductive OutboxCall
  | committing (organizationId : String) (drafts : List EventDraft)
  | committed
  | loading (organizationId : String) (limit : Int) (eventTypes : List String)
  | publishing (attempted : Nat) (published : List String) (envelope : OutboxEnvelope)
      (rest : List OutboxEnvelope)
  | marking (attempted : Nat) (published : List String) (envelope : OutboxEnvelope)
      (rest : List OutboxEnvelope)
  | dispatched (result : DispatchResult)
  | raised (published : List String) (error : QualificationError)

inductive OutboxRequest
  | commit (organizationId : String) (drafts : List EventDraft)
  | dispatch (organizationId : String) (limit : Int) (eventTypes : List String)

/-- How the queue answers: it may take an envelope and its answer be lost. -/
inductive QueueAnswer
  | acknowledged
  | unacknowledged (error : QualificationError)
  | refused (error : QualificationError)

/-- What a step is given: the worker's clock, and the answer of the queue. -/
structure OutboxTurn where
  now : Int
  answer : QueueAnswer

/-- The loop of `dispatch_batch`. -/
def publishNext (attempted : Nat) (published : List String) : List OutboxEnvelope → OutboxCall
  | [] => .dispatched ⟨attempted, published.length, published⟩
  | envelope :: rest => .publishing attempted published envelope rest

def startOutbox : OutboxRequest → OutboxTurn → Outbox → OutboxCall
  | .commit organizationId drafts, _, _ => .committing organizationId drafts
  | .dispatch organizationId limit eventTypes, _, _ => .loading organizationId limit eventTypes

def nextOutbox (call : OutboxCall) (turn : OutboxTurn) (outbox : Outbox) : OutboxCall × Outbox :=
  match call with
  | .committing organizationId drafts =>
    match commitEvents organizationId drafts outbox with
    | .ok outbox => (.committed, outbox)
    | .error error => (.raised [] error, outbox)
  | .loading organizationId limit eventTypes =>
    match loadUnpublished organizationId limit eventTypes outbox with
    | .ok envelopes => (publishNext envelopes.length [] envelopes, outbox)
    | .error error => (.raised [] error, outbox)
  | .publishing attempted published envelope rest =>
    let taken := { outbox with queue := outbox.queue ++ [envelope] }
    match turn.answer with
    | .acknowledged => (.marking attempted published envelope rest, taken)
    | .unacknowledged error => (.raised published error, taken)
    | .refused error => (.raised published error, outbox)
  | .marking attempted published envelope rest =>
    let (marked, outbox) := markPublished envelope turn.now outbox
    if marked then
      (publishNext attempted (published ++ [envelope.id]) rest,
        { outbox with counted := outbox.counted ++ [envelope.id] })
    else (publishNext attempted published rest, outbox)
  | .committed => (.committed, outbox)
  | .dispatched result => (.dispatched result, outbox)
  | .raised published error => (.raised published error, outbox)

def outboxSystem : Interleaving.System Outbox OutboxCall OutboxRequest OutboxTurn where
  start := startOutbox
  next := nextOutbox

abbrev OutboxRun := List (Interleaving.Event OutboxRequest OutboxTurn)

/-- The world after a run from the empty outbox. -/
def outboxAfter (run : OutboxRun) : Interleaving.World Outbox OutboxCall :=
  outboxSystem.run ⟨{}, []⟩ run

/-- The events that a dispatcher has counted as published. -/
def OutboxCall.counted : OutboxCall → List String
  | .publishing _ published _ _ | .marking _ published _ _ | .raised published _ => published
  | .dispatched result => result.eventIds
  | .committing .. | .committed | .loading .. => []

/-! ## Rows -/

/-- An envelope is that of a committed event. -/
def Stems (outbox : Outbox) (envelope : OutboxEnvelope) : Prop :=
  ∃ row ∈ outbox.rows, row.toOutboxEnvelope = envelope

/-- The outbox and the queue agree: what is marked was taken, what was taken was committed, and
    what was counted is marked, once. -/
structure SoundOutbox (outbox : Outbox) : Prop where
  ids : Table.Keyed (fun (r : OutboxRow) => r.id) outbox.rows
  valid : ∀ row ∈ outbox.rows, row.toOutboxEnvelope.validated = .ok row.toOutboxEnvelope
  published : ∀ row ∈ outbox.rows, row.publishedAt ≠ none → row.toOutboxEnvelope ∈ outbox.queue
  stems : ∀ envelope ∈ outbox.queue, Stems outbox envelope
  counted : outbox.counted.Nodup
  marked : ∀ id ∈ outbox.counted, ∃ row ∈ outbox.rows, row.id = id ∧ row.publishedAt ≠ none

/-- A dispatcher holds envelopes of committed events, and the one that it marks was taken. -/
def HoldsEvents (outbox : Outbox) : OutboxCall → Prop
  | .publishing _ _ envelope rest => ∀ x ∈ envelope :: rest, Stems outbox x
  | .marking _ _ envelope rest => envelope ∈ outbox.queue ∧ ∀ x ∈ rest, Stems outbox x
  | _ => True

/-- Committed events stay, and so does what the queue took. -/
structure Extends (outbox outbox' : Outbox) : Prop where
  stems : ∀ envelope, Stems outbox envelope → Stems outbox' envelope
  queue : ∀ envelope ∈ outbox.queue, envelope ∈ outbox'.queue

theorem Extends.refl (outbox : Outbox) : Extends outbox outbox :=
  ⟨fun _ h => h, fun _ h => h⟩

theorem Extends.holds {outbox outbox' : Outbox} {call : OutboxCall} (h : Extends outbox outbox')
    (hholds : HoldsEvents outbox call) : HoldsEvents outbox' call := by
  cases call with
  | publishing => exact fun x hx => h.stems x (hholds x hx)
  | marking => exact ⟨h.queue _ hholds.1, fun x hx => h.stems x (hholds.2 x hx)⟩
  | _ => trivial

theorem holds_publishNext {outbox : Outbox} {attempted : Nat} {published : List String}
    {envelopes : List OutboxEnvelope} (h : ∀ x ∈ envelopes, Stems outbox x) :
    HoldsEvents outbox (publishNext attempted published envelopes) := by
  cases envelopes with
  | nil => trivial
  | cons envelope rest => exact h

section Rows

variable {outbox outbox' : Outbox} {organizationId : String}

theorem validated_eq_ok {envelope envelope' : OutboxEnvelope}
    (h : envelope.validated = .ok envelope') : envelope' = envelope := by
  unfold OutboxEnvelope.validated at h
  split at h
  · cases h
  · split at h
    · cases h
    · cases h
      rfl

theorem tenant_of_validated {envelope envelope' : OutboxEnvelope}
    (h : envelope.validated = .ok envelope') :
    validatedOrganizationId envelope.organizationId = .ok envelope.organizationId := by
  unfold OutboxEnvelope.validated at h
  split at h
  · cases h
  · next hvalid =>
    unfold validatedOrganizationId at hvalid ⊢
    split
    · rfl
    · next hbad =>
      rw [if_neg hbad] at hvalid
      exact absurd rfl hvalid

theorem validated_draft (draft : EventDraft)
    (htenant : validatedOrganizationId organizationId = .ok organizationId) :
    ({ draft.envelope with organizationId := organizationId } : OutboxEnvelope).validated =
      .ok { draft.envelope with organizationId := organizationId } := by
  have hcomplete : ({ draft.envelope with organizationId := organizationId } :
      OutboxEnvelope).required.any (fun value => strip value = "") = false := by
    rw [List.any_eq_false]
    intro value hvalue
    simpa using draft.complete value hvalue
  unfold OutboxEnvelope.validated
  rw [if_neg (by rw [htenant]; simp [Except.isOk, Except.toBool]), if_neg (by simp [hcomplete])]

theorem insertEvent_eq_ok {rows rows' : List OutboxRow} {draft : EventDraft}
    (h : insertEvent organizationId rows draft = .ok rows') :
    (∀ r ∈ rows, r.id ≠ draft.envelope.id) ∧
      rows' = rows ++ [{ draft.envelope with
        organizationId := organizationId
        publishedAt := none }] := by
  unfold insertEvent at h
  obtain ⟨_, hid, h⟩ := bind_eq_ok.mp h
  obtain ⟨_, -, h⟩ := bind_eq_ok.mp h
  cases h
  rw [constrain_eq_ok, List.any_eq_false] at hid
  exact ⟨by simpa using hid, rfl⟩

/-- Rows that a transaction of a valid tenant may add. -/
structure Commits (rows rows' : List OutboxRow) : Prop where
  keeps : ∀ r ∈ rows, r ∈ rows'
  adds : ∀ r ∈ rows', r ∈ rows ∨ (r.publishedAt = none ∧
    r.toOutboxEnvelope.validated = .ok r.toOutboxEnvelope)
  ids : Table.Keyed (fun (r : OutboxRow) => r.id) rows →
    Table.Keyed (fun (r : OutboxRow) => r.id) rows'

theorem commits_of_insertEvent {rows rows' : List OutboxRow} {draft : EventDraft}
    (htenant : validatedOrganizationId organizationId = .ok organizationId)
    (h : insertEvent organizationId rows draft = .ok rows') : Commits rows rows' := by
  obtain ⟨hid, rfl⟩ := insertEvent_eq_ok h
  refine ⟨fun r hr => List.mem_append_left _ hr, fun r hr => ?_, fun hkeyed => hkeyed.append hid⟩
  rcases List.mem_append.mp hr with hr | hr
  · exact .inl hr
  · rw [List.mem_singleton.mp hr]
    exact .inr ⟨rfl, validated_draft draft htenant⟩

theorem commits_of_commitEvents {drafts : List EventDraft}
    (h : commitEvents organizationId drafts outbox = .ok outbox') :
    Commits outbox.rows outbox'.rows ∧ outbox'.queue = outbox.queue ∧
      outbox'.counted = outbox.counted := by
  unfold commitEvents at h
  obtain ⟨tenant, htenant, h⟩ := bind_eq_ok.mp h
  obtain ⟨rows, hrows, h⟩ := bind_eq_ok.mp h
  cases h
  obtain rfl : tenant = organizationId := by
    unfold validatedOrganizationId at htenant
    split at htenant
    · cases htenant
      rfl
    · cases htenant
  refine ⟨?_, rfl, rfl⟩
  refine foldlM_related (R := Commits) ?_ ?_ ?_ hrows
  · exact fun rows => ⟨fun _ hr => hr, fun _ hr => .inl hr, fun hkeyed => hkeyed⟩
  · intro x y z hxy hyz
    refine ⟨fun r hr => hyz.keeps r (hxy.keeps r hr), fun r hr => ?_,
      fun hkeyed => hyz.ids (hxy.ids hkeyed)⟩
    rcases hyz.adds r hr with hr | hnew
    · exact hxy.adds r hr
    · exact .inr hnew
  · exact fun draft _ rows rows' hinsert => commits_of_insertEvent htenant hinsert

theorem mem_rows_markPublished {envelope : OutboxEnvelope} {publishedAt : Int} {row : OutboxRow}
    (h : row ∈ (markPublished envelope publishedAt outbox).2.rows) :
    ∃ r ∈ outbox.rows, row.toOutboxEnvelope = r.toOutboxEnvelope ∧
      (row = r ∨ (Marks envelope r ∧ row.publishedAt = some publishedAt)) := by
  obtain ⟨r, hr, heq⟩ := List.mem_map.mp h
  refine ⟨r, hr, ?_⟩
  split at heq
  · next hmarks =>
    rw [← heq]
    exact ⟨rfl, .inr ⟨hmarks, rfl⟩⟩
  · rw [heq]
    exact ⟨rfl, .inl rfl⟩

theorem map_rows_markPublished (envelope : OutboxEnvelope) (publishedAt : Int) :
    (markPublished envelope publishedAt outbox).2.rows.map (fun r => r.toOutboxEnvelope) =
      outbox.rows.map (fun r => r.toOutboxEnvelope) := by
  unfold markPublished
  rw [List.map_map]
  refine List.map_congr_left (fun r _ => ?_)
  simp only [Function.comp]
  split <;> rfl

theorem stems_iff (envelope : OutboxEnvelope) :
    Stems outbox envelope ↔ envelope ∈ outbox.rows.map (fun r => r.toOutboxEnvelope) := by
  unfold Stems
  rw [List.mem_map]

/-- The row that a marking of a committed envelope compares equal to is that envelope's. -/
theorem eq_of_marks {envelope : OutboxEnvelope} {row : OutboxRow}
    (hids : Table.Keyed (fun (r : OutboxRow) => r.id) outbox.rows) (hrow : row ∈ outbox.rows)
    (hstems : Stems outbox envelope) (hmarks : Marks envelope row) :
    row.toOutboxEnvelope = envelope := by
  obtain ⟨r, hr, rfl⟩ := hstems
  rw [hids.eq hrow hr hmarks.2.1]

end Rows

/-! ## Steps -/

section Steps

variable {outbox : Outbox} {call : OutboxCall} {turn : OutboxTurn}

theorem extends_markPublished (envelope : OutboxEnvelope) (publishedAt : Int) (counted : List String) :
    Extends outbox { (markPublished envelope publishedAt outbox).2 with counted := counted } where
  stems := by
    intro x hx
    rw [stems_iff] at hx ⊢
    rw [map_rows_markPublished]
    exact hx
  queue := fun _ hx => hx

theorem extends_of_next (call : OutboxCall) (turn : OutboxTurn) (outbox : Outbox) :
    Extends outbox (nextOutbox call turn outbox).2 := by
  cases call with
  | committing organizationId drafts =>
    unfold nextOutbox
    dsimp only
    split
    · next outbox' hcommit =>
      obtain ⟨hcommits, hqueue, -⟩ := commits_of_commitEvents hcommit
      refine ⟨fun x ⟨r, hr, hx⟩ => ⟨r, hcommits.keeps r hr, hx⟩, fun x hx => ?_⟩
      rw [hqueue]
      exact hx
    · exact .refl outbox
  | loading =>
    unfold nextOutbox
    dsimp only
    split <;> exact .refl outbox
  | publishing =>
    unfold nextOutbox
    dsimp only
    split
    · exact ⟨fun _ h => h, fun _ h => List.mem_append_left _ h⟩
    · exact ⟨fun _ h => h, fun _ h => List.mem_append_left _ h⟩
    · exact .refl outbox
  | marking =>
    unfold nextOutbox
    dsimp only
    split
    · exact extends_markPublished _ _ _
    · exact extends_markPublished _ _ _
  | committed => exact .refl outbox
  | dispatched => exact .refl outbox
  | raised => exact .refl outbox

theorem mem_rows_of_batch {organizationId : String} {limit : Nat} {eventTypes : List String}
    {row : OutboxRow} (h : row ∈ batch organizationId limit eventTypes outbox) :
    row ∈ outbox.rows :=
  (List.mem_filter.mp (mem_sortedBy.mp (List.mem_of_mem_take h))).1

theorem stems_of_loadUnpublished {organizationId : String} {limit : Int} {eventTypes : List String}
    {envelopes : List OutboxEnvelope}
    (h : loadUnpublished organizationId limit eventTypes outbox = .ok envelopes) :
    ∀ x ∈ envelopes, Stems outbox x := by
  unfold loadUnpublished at h
  obtain ⟨-, h⟩ := unless_throw_eq_ok.mp h
  obtain ⟨tenant, -, h⟩ := bind_eq_ok.mp h
  intro x hx
  obtain ⟨row, hrow, hvalid⟩ := (mem_of_mapM_eq_ok h).mp hx
  rw [validated_eq_ok hvalid]
  exact ⟨row, mem_rows_of_batch hrow, rfl⟩

theorem holdsEvents_of_next (hholds : HoldsEvents outbox call) :
    HoldsEvents (nextOutbox call turn outbox).2 (nextOutbox call turn outbox).1 := by
  cases call with
  | committing =>
    unfold nextOutbox
    dsimp only
    split <;> trivial
  | loading =>
    unfold nextOutbox
    dsimp only
    split
    · next envelopes hload => exact holds_publishNext (stems_of_loadUnpublished hload)
    · trivial
  | publishing attempted published envelope rest =>
    unfold nextOutbox
    dsimp only
    split
    · exact ⟨List.mem_append_right _ List.mem_cons_self,
        fun x hx => hholds x (List.mem_cons_of_mem _ hx)⟩
    · trivial
    · trivial
  | marking attempted published envelope rest =>
    unfold nextOutbox
    dsimp only
    split
    · exact holds_publishNext
        (fun x hx => (extends_markPublished envelope turn.now _).stems x (hholds.2 x hx))
    · exact holds_publishNext
        (fun x hx => (extends_markPublished envelope turn.now _).stems x (hholds.2 x hx))
  | committed => trivial
  | dispatched => trivial
  | raised => trivial

theorem queued_of_next (hsound : SoundOutbox outbox) (hholds : HoldsEvents outbox call) {row : OutboxRow}
    (hrow : row ∈ (nextOutbox call turn outbox).2.rows) (hmarked : row.publishedAt ≠ none) :
    row.toOutboxEnvelope ∈ outbox.queue := by
  cases call with
  | committing organizationId drafts =>
    unfold nextOutbox at hrow
    dsimp only at hrow
    split at hrow
    · next outbox' hcommit =>
      rcases (commits_of_commitEvents hcommit).1.adds row hrow with hold | ⟨hnew, -⟩
      · exact hsound.published row hold hmarked
      · exact absurd hnew hmarked
    · exact hsound.published row hrow hmarked
  | loading =>
    unfold nextOutbox at hrow
    dsimp only at hrow
    split at hrow <;> exact hsound.published row hrow hmarked
  | publishing =>
    unfold nextOutbox at hrow
    dsimp only at hrow
    split at hrow <;> exact hsound.published row hrow hmarked
  | marking attempted published envelope rest =>
    have hmem : row ∈ (markPublished envelope turn.now outbox).2.rows := by
      unfold nextOutbox at hrow
      dsimp only at hrow
      split at hrow <;> exact hrow
    obtain ⟨r, hr, hsame, rfl | ⟨hmarks, -⟩⟩ := mem_rows_markPublished hmem
    · exact hsound.published _ hr hmarked
    · rw [hsame, eq_of_marks hsound.ids hr (hsound.stems envelope hholds.1) hmarks]
      exact hholds.1
  | committed => exact hsound.published row hrow hmarked
  | dispatched => exact hsound.published row hrow hmarked
  | raised => exact hsound.published row hrow hmarked

theorem sound_of_marking {attempted : Nat} {published : List String} {envelope : OutboxEnvelope}
    {rest : List OutboxEnvelope} (hsound : SoundOutbox outbox)
    (hholds : HoldsEvents outbox (.marking attempted published envelope rest)) :
    SoundOutbox (nextOutbox (.marking attempted published envelope rest) turn outbox).2 := by
  have hextends := extends_of_next (.marking attempted published envelope rest) turn outbox
  have hqueued : ∀ row ∈ (nextOutbox (.marking attempted published envelope rest) turn outbox).2.rows,
      row.publishedAt ≠ none → row.toOutboxEnvelope ∈
        (nextOutbox (.marking attempted published envelope rest) turn outbox).2.queue :=
    fun _ hrow hmarked => hextends.queue _ (queued_of_next hsound hholds hrow hmarked)
  have hstems := hsound.stems envelope hholds.1
  have hids : Table.Keyed (fun (r : OutboxRow) => r.id)
      (markPublished envelope turn.now outbox).2.rows := by
    have hview : (markPublished envelope turn.now outbox).2.rows.map _ = outbox.rows.map _ :=
      map_rows_markPublished envelope turn.now
    have hview := congrArg (List.map (fun (e : OutboxEnvelope) => e.id)) hview
    rw [List.map_map, List.map_map] at hview
    exact (congrArg List.Nodup hview).mpr hsound.ids
  have hvalid : ∀ row ∈ (markPublished envelope turn.now outbox).2.rows,
      row.toOutboxEnvelope.validated = .ok row.toOutboxEnvelope := by
    intro row hrow
    obtain ⟨r, hr, hsame, -⟩ := mem_rows_markPublished hrow
    rw [hsame]
    exact hsound.valid r hr
  -- A row that was marked stays marked.
  have hkept : ∀ id ∈ outbox.counted, ∃ row ∈ (markPublished envelope turn.now outbox).2.rows,
      row.id = id ∧ row.publishedAt ≠ none := by
    intro id hid
    obtain ⟨row, hrow, hrowId, hmarked⟩ := hsound.marked id hid
    refine ⟨row, List.mem_map.mpr ⟨row, hrow, if_neg fun hmarks => ?_⟩, hrowId, hmarked⟩
    exact hmarked hmarks.2.2.2
  unfold nextOutbox at hqueued hextends ⊢
  dsimp only at hqueued hextends ⊢
  split
  · next hany =>
    rw [if_pos hany] at hqueued hextends
    obtain ⟨row, hrow, hmarks⟩ := List.any_eq_true.mp hany
    have hmarks : Marks envelope row := of_decide_eq_true hmarks
    refine ⟨hids, hvalid, hqueued, fun x hx => hextends.stems x (hsound.stems x hx), ?_, ?_⟩
    · -- What is counted now was not marked before, so it was not counted before.
      refine List.Nodup.append hsound.counted (List.nodup_singleton _) ?_
      intro id hid heq
      obtain ⟨r, hr, hrid, hrmarked⟩ := hsound.marked id hid
      rw [List.mem_singleton.mp heq] at hrid
      rw [hsound.ids.eq hr hrow (hrid.trans hmarks.2.1.symm)] at hrmarked
      exact hrmarked hmarks.2.2.2
    · intro id hid
      rcases List.mem_append.mp hid with hid | hid
      · exact hkept id hid
      · rw [List.mem_singleton.mp hid]
        refine ⟨{ row with publishedAt := some turn.now },
          List.mem_map.mpr ⟨row, hrow, if_pos hmarks⟩, hmarks.2.1, nofun⟩
  · next hnone =>
    rw [if_neg hnone] at hqueued hextends
    exact ⟨hids, hvalid, hqueued, fun x hx => hextends.stems x (hsound.stems x hx),
      hsound.counted, hkept⟩

theorem sound_of_next (hsound : SoundOutbox outbox) (hholds : HoldsEvents outbox call) :
    SoundOutbox (nextOutbox call turn outbox).2 := by
  cases call with
  | committing organizationId drafts =>
    unfold nextOutbox
    dsimp only
    split
    · next outbox' hcommit =>
      obtain ⟨hcommits, hqueue, hcounted⟩ := commits_of_commitEvents hcommit
      refine ⟨hcommits.ids hsound.ids, ?_, ?_, ?_, ?_, ?_⟩
      · intro row hrow
        rcases hcommits.adds row hrow with hold | ⟨-, hnew⟩
        · exact hsound.valid row hold
        · exact hnew
      · intro row hrow hmarked
        rw [hqueue]
        rcases hcommits.adds row hrow with hold | ⟨hnew, -⟩
        · exact hsound.published row hold hmarked
        · exact absurd hnew hmarked
      · intro x hx
        rw [hqueue] at hx
        obtain ⟨row, hrow, heq⟩ := hsound.stems x hx
        exact ⟨row, hcommits.keeps row hrow, heq⟩
      · rw [hcounted]
        exact hsound.counted
      · intro id hid
        rw [hcounted] at hid
        obtain ⟨row, hrow, hmarked⟩ := hsound.marked id hid
        exact ⟨row, hcommits.keeps row hrow, hmarked⟩
    · exact hsound
  | loading =>
    unfold nextOutbox
    dsimp only
    split <;> exact hsound
  | publishing attempted published envelope rest =>
    have htaken : SoundOutbox { outbox with queue := outbox.queue ++ [envelope] } := by
      refine ⟨hsound.ids, hsound.valid, fun row hrow hmarked =>
        List.mem_append_left _ (hsound.published row hrow hmarked), fun x hx => ?_,
        hsound.counted, hsound.marked⟩
      rcases List.mem_append.mp hx with hx | hx
      · exact hsound.stems x hx
      · rw [List.mem_singleton.mp hx]
        exact hholds envelope List.mem_cons_self
    unfold nextOutbox
    dsimp only
    split
    · exact htaken
    · exact htaken
    · exact hsound
  | marking => exact sound_of_marking hsound hholds
  | committed => exact hsound
  | dispatched => exact hsound
  | raised => exact hsound

@[simp] theorem counted_publishNext (attempted : Nat) (published : List String)
    (envelopes : List OutboxEnvelope) :
    (publishNext attempted published envelopes).counted = published := by
  cases envelopes <;> rfl

theorem counted_of_next (call : OutboxCall) (turn : OutboxTurn) (outbox : Outbox) :
    ∃ added, (nextOutbox call turn outbox).1.counted = call.counted ++ added ∧
      (nextOutbox call turn outbox).2.counted = outbox.counted ++ added := by
  cases call with
  | committing =>
    refine ⟨[], ?_⟩
    unfold nextOutbox
    simp only [List.append_nil]
    split
    · next hcommit => exact ⟨rfl, (commits_of_commitEvents hcommit).2.2⟩
    · exact ⟨rfl, rfl⟩
  | loading =>
    refine ⟨[], ?_⟩
    unfold nextOutbox
    simp only [List.append_nil]
    split
    · exact ⟨counted_publishNext _ _ _, rfl⟩
    · exact ⟨rfl, rfl⟩
  | publishing =>
    refine ⟨[], ?_⟩
    unfold nextOutbox
    simp only [List.append_nil]
    split <;> exact ⟨rfl, rfl⟩
  | marking attempted published envelope rest =>
    unfold nextOutbox
    dsimp only
    split
    · exact ⟨[envelope.id], counted_publishNext _ _ _, rfl⟩
    · refine ⟨[], ?_, (List.append_nil _).symm⟩
      rw [List.append_nil]
      exact counted_publishNext _ _ _
  | committed => exact ⟨[], rfl, (List.append_nil _).symm⟩
  | dispatched => exact ⟨[], (List.append_nil _).symm, (List.append_nil _).symm⟩
  | raised => exact ⟨[], (List.append_nil _).symm, (List.append_nil _).symm⟩

end Steps

/-! ## Runs -/

theorem outline : outboxSystem.Outline (fun _ _ _ => True) SoundOutbox HoldsEvents where
  start s request _ _ := by
    cases request with
    | commit => trivial
    | dispatch => trivial
  store _ _ _ hsound hholds _ := sound_of_next hsound hholds
  own _ _ _ _ hholds _ := holdsEvents_of_next hholds
  other s c d given _ _ hd _ := (extends_of_next c given s).holds hd

theorem sound_outboxAfter (run : OutboxRun) :
    SoundOutbox (outboxAfter run).store ∧
      ∀ call ∈ (outboxAfter run).calls, HoldsEvents (outboxAfter run).store call := by
  apply outline.run
  · exact ⟨Table.keyed_nil, fun _ h => absurd h List.not_mem_nil,
      fun _ h => absurd h List.not_mem_nil, fun _ h => absurd h List.not_mem_nil, List.nodup_nil,
      fun _ h => absurd h List.not_mem_nil⟩
  · exact fun _ h => absurd h List.not_mem_nil
  · apply Interleaving.System.along_of_forall
    intro w e
    cases e <;> simp [Interleaving.System.StepsMeet]

theorem flatMap_set_perm {calls : List OutboxCall} {i : Nat} {call call' : OutboxCall}
    {added : List String} (hcall : calls[i]? = some call)
    (hadded : call'.counted = call.counted ++ added) :
    ((calls.set i call').flatMap OutboxCall.counted).Perm
      (calls.flatMap OutboxCall.counted ++ added) := by
  induction calls generalizing i with
  | nil => cases hcall
  | cons c calls ih =>
    cases i with
    | zero =>
      obtain rfl : c = call := Option.some.inj hcall
      rw [List.set_cons_zero, List.flatMap_cons, List.flatMap_cons, hadded, List.append_assoc,
        List.append_assoc]
      exact (List.Perm.refl _).append List.perm_append_comm
    | succ i =>
      rw [List.set_cons_succ, List.flatMap_cons, List.flatMap_cons, List.append_assoc]
      exact (List.Perm.refl _).append (ih hcall)

theorem counted_outboxAfter (run : OutboxRun) :
    ((outboxAfter run).calls.flatMap OutboxCall.counted).Subperm (outboxAfter run).store.counted := by
  have hevery : outboxSystem.Along (fun _ _ => True) ⟨{}, []⟩ run :=
    Interleaving.System.along_of_forall (fun _ _ => trivial) _ _
  refine Interleaving.System.run_induction
    (I := fun (w : Interleaving.World Outbox OutboxCall) =>
      (w.calls.flatMap OutboxCall.counted).Subperm w.store.counted) ?_ (List.Subperm.refl []) hevery
  · intro w e hw _
    cases e with
    | start request turn =>
      have hnew : (startOutbox request turn w.store).counted = [] := by
        cases request <;> rfl
      show ((w.calls ++ [startOutbox request turn w.store]).flatMap OutboxCall.counted).Subperm _
      rw [List.flatMap_append, List.flatMap_singleton, hnew, List.append_nil]
      exact hw
    | advance i turn =>
      simp only [Interleaving.System.step]
      split
      · next call hcall =>
        obtain ⟨added, hown, hstore⟩ := counted_of_next call turn w.store
        show ((w.calls.set i (nextOutbox call turn w.store).1).flatMap OutboxCall.counted).Subperm
          (nextOutbox call turn w.store).2.counted
        rw [hstore]
        exact (flatMap_set_perm hcall hown).subperm.trans
          ((List.subperm_append_right added).mpr hw)
      · exact hw
    | crash i =>
      refine List.Subperm.trans (List.Sublist.subperm ?_) hw
      show ((w.calls.eraseIdx i).flatMap OutboxCall.counted).Sublist
        (w.calls.flatMap OutboxCall.counted)
      exact (List.eraseIdx_sublist w.calls i).flatMap OutboxCall.counted

/-- A load of a tenant's events returns each that is unpublished, unless it returns as many as
    it was asked for and all of them come before. -/
theorem loads_unpublished {outbox : Outbox} (hsound : SoundOutbox outbox) {row : OutboxRow}
    (hrow : row ∈ outbox.rows) (hunpublished : row.publishedAt = none) {limit : Int}
    {eventTypes : List String} (hlow : 1 ≤ limit) (hhigh : limit ≤ 100)
    (htype : eventTypes = [] ∨ row.eventType ∈ eventTypes) :
    ∃ envelopes, loadUnpublished row.organizationId limit eventTypes outbox = .ok envelopes ∧
      (row.toOutboxEnvelope ∈ envelopes ∨ (envelopes.length = limit ∧
        ∀ x ∈ envelopes, x.place < row.toOutboxEnvelope.place)) := by
  have htenant := tenant_of_validated (hsound.valid row hrow)
  have hselected : row ∈ outbox.rows.filter (fun r => Selected row.organizationId eventTypes r) :=
    List.mem_filter.mpr ⟨hrow, decide_eq_true ⟨rfl, hunpublished, htype⟩⟩
  have hload : loadUnpublished row.organizationId limit eventTypes outbox =
      .ok ((batch row.organizationId limit.toNat eventTypes outbox).map
        (fun r => r.toOutboxEnvelope)) := by
    unfold loadUnpublished
    rw [unless_throw_eq_ok, htenant]
    refine ⟨by omega, mapM_eq_ok.mpr (List.forall₂_map_right_iff.mpr ?_)⟩
    exact List.forall₂_same.mpr (fun r hr => hsound.valid r (mem_rows_of_batch hr))
  refine ⟨_, hload, ?_⟩
  by_cases hmem : row.toOutboxEnvelope ∈
      (batch row.organizationId limit.toNat eventTypes outbox).map (fun r => r.toOutboxEnvelope)
  · exact .inl hmem
  · right
    have hplaced : row ∈ batch row.organizationId limit.toNat eventTypes outbox ∨
        ((batch row.organizationId limit.toNat eventTypes outbox).length = limit.toNat ∧
          ∀ r ∈ batch row.organizationId limit.toNat eventTypes outbox,
            r.toOutboxEnvelope.place ≤ row.toOutboxEnvelope.place) :=
      mem_take_sortedBy_or hselected limit.toNat
    rcases hplaced with hfirst | ⟨hlength, hbefore⟩
    · exact absurd (List.mem_map_of_mem hfirst) hmem
    · constructor
      · rw [List.length_map, hlength, Int.toNat_of_nonneg (by omega)]
      · intro x hx
        obtain ⟨r, hr, rfl⟩ := List.mem_map.mp hx
        refine lt_of_le_of_ne (hbefore r hr) (fun heq => hmem ?_)
        -- Events at one place have one id, so they are one event.
        have hid : r.id = row.id := congrArg (fun (p : Int ×ₗ String) => (ofLex p).2) heq
        have hsame := congrArg (fun (r : OutboxRow) => r.toOutboxEnvelope)
          (hsound.ids.eq (mem_rows_of_batch hr) hrow hid)
        exact hsame ▸ hx

/-- In every interleaving of transactions that commit events and of dispatchers, with crashes
    anywhere: an event is marked after its own envelope was taken by the queue, the queue has
    envelopes of committed events only, an unmarked event is loaded again, and an event is counted
    as published by one dispatcher at most. -/
theorem outbox_loses_and_invents_nothing (run : OutboxRun) :
    (∀ event, ∀ row ∈ (outboxAfter (run ++ [event])).store.rows, row.publishedAt ≠ none →
      row.toOutboxEnvelope ∈ (outboxAfter run).store.queue) ∧
    (∀ envelope ∈ (outboxAfter run).store.queue, ∃ row ∈ (outboxAfter run).store.rows,
      row.toOutboxEnvelope = envelope) ∧
    (∀ row ∈ (outboxAfter run).store.rows, row.publishedAt = none → ∀ limit eventTypes,
      1 ≤ limit → limit ≤ 100 → (eventTypes = [] ∨ row.eventType ∈ eventTypes) →
        ∃ envelopes, loadUnpublished row.organizationId limit eventTypes (outboxAfter run).store =
            .ok envelopes ∧
          (row.toOutboxEnvelope ∈ envelopes ∨ (envelopes.length = limit ∧
            ∀ x ∈ envelopes, x.place < row.toOutboxEnvelope.place))) ∧
    (outboxAfter run).store.counted.Nodup ∧
      ((outboxAfter run).calls.flatMap OutboxCall.counted).Nodup := by
  obtain ⟨hsound, hholds⟩ := sound_outboxAfter run
  refine ⟨fun event row hrow hmarked => ?_, hsound.stems, fun row hrow hunpublished limit eventTypes
    hlow hhigh htype => loads_unpublished hsound hrow hunpublished hlow hhigh htype,
    hsound.counted, ?_⟩
  · unfold outboxAfter at hrow
    rw [Interleaving.System.run_append] at hrow
    cases event with
    | start => exact hsound.published row hrow hmarked
    | crash => exact hsound.published row hrow hmarked
    | advance i turn =>
      cases hcall : (outboxAfter run).calls[i]? with
      | none =>
        have hsame : (outboxSystem.run (outboxAfter run) [.advance i turn]).store =
            (outboxAfter run).store := by
          show (outboxSystem.step (outboxAfter run) (.advance i turn)).store = _
          simp only [Interleaving.System.step, hcall]
        rw [show outboxSystem.run ⟨{}, []⟩ run = outboxAfter run from rfl, hsame] at hrow
        exact hsound.published row hrow hmarked
      | some call =>
        have hnext : (outboxSystem.run (outboxAfter run) [.advance i turn]).store = _ :=
          Interleaving.System.run_advance hcall turn
        rw [show outboxSystem.run ⟨{}, []⟩ run = outboxAfter run from rfl, hnext] at hrow
        exact queued_of_next hsound (hholds call (List.mem_of_getElem? hcall)) hrow hmarked
  · obtain ⟨counts, hperm, hsublist⟩ := counted_outboxAfter run
    exact hperm.nodup_iff.mp (hsublist.nodup hsound.counted)

end SiraWorker
