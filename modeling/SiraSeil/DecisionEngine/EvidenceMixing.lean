-- SUMMARY: When the score of a bundle calls a field acceptable although one of its components alone would not be.
import SiraSeil.DecisionEngine.Conflicts
import SiraSeil.Domain.Digests
import SiraSeil.DecisionEngine.SetOrder

/-!
# Mixed evidence

The fact that a bundle aggregates from its components cites the evidence of all
of them, and a field is acceptable as soon as one cited record is. So one
component with acceptable evidence lends it to the others. Gates take the state
of every component instead.
-/

namespace DecisionEngine

open Domain Sorting Raising

variable {rt : Runtime} {input : DecisionGraphInput} {index : AssessmentIndex}

/-! ## The state of a field -/

/-- Some evidence that the facts cite for the field is in this state. -/
def CitesState (facts : List ProductFact) (field : String) (index : AssessmentIndex)
    (state : EvidenceState) : Prop :=
  ∃ fact ∈ facts, fact.field = field ∧ ∃ id ∈ fact.evidenceIds.items,
    ∃ a, index.get? (toLex (id, field)) = some a ∧ a.state = state

/-- The facts put the field in the state ACCEPTABLE. -/
def Acceptable (rt : Runtime) (facts : List ProductFact) (field : String)
    (index : AssessmentIndex) : Prop :=
  ∃ state, fieldState rt facts field index = .ok state ∧ state.state = .acceptable

theorem combinedState_eq_acceptable {states : List EvidenceState} {conflicting : Bool} :
    combinedState states conflicting = .acceptable ↔
      .acceptable ∈ states ∧ .conflict ∉ states ∧ conflicting = false := by
  unfold combinedState
  cases conflicting <;> split_ifs <;> simp_all

variable {facts facts' : List ProductFact} {records : List RawCandidateRecord}
  {aggregation : Option Aggregation} {cost : OfferCost}

theorem fieldState_combines {field : String} {state : FieldState}
    (h : fieldState rt facts field index = .ok state) :
    ∃ states conflicting, state.state = combinedState states conflicting ∧
      (∀ s, s ∈ states ↔ CitesState facts field index s) ∧
      (conflicting = true ↔ TwoValued rt facts field) := by
  have hmatching : ∀ fact, fact ∈ facts.filter (fun fact => fact.field = field) ↔
      fact ∈ facts ∧ fact.field = field := by
    intro fact
    rw [List.mem_filter, decide_eq_true_eq]
  unfold fieldState at h
  dsimp only at h
  split at h
  next hempty =>
    obtain rfl := pure_eq_ok.mp h
    have hnone : ∀ fact ∈ facts, fact.field ≠ field := by
      intro fact hfact hfield
      have hmem := (hmatching fact).mpr ⟨hfact, hfield⟩
      rw [List.isEmpty_iff.mp hempty] at hmem
      cases hmem
    refine ⟨[], false, rfl, fun s => ⟨nofun, ?_⟩, ⟨nofun, ?_⟩⟩
    · rintro ⟨fact, hfact, hfield, -⟩
      exact absurd hfield (hnone fact hfact)
    · rintro ⟨fact, hfact, -, -, hfield, -⟩
      exact absurd hfield (hnone fact hfact)
  next =>
    obtain ⟨values, hvalues, h⟩ := bind_eq_ok.mp h
    obtain rfl := pure_eq_ok.mp h
    refine ⟨_, _, rfl, fun s => ?_, ?_⟩
    · unfold assessmentsFor CitesState
      simp only [List.mem_map, List.mem_filterMap, mem_sortedSet, List.mem_flatMap, hmatching]
      constructor
      · rintro ⟨a, ⟨id, ⟨fact, ⟨hfact, hfield⟩, hid⟩, hget⟩, hstate⟩
        exact ⟨fact, hfact, hfield, id, hid, a, hget, hstate⟩
      · rintro ⟨fact, hfact, hfield, id, hid, a, hget, hstate⟩
        exact ⟨a, ⟨id, ⟨fact, ⟨hfact, hfield⟩, hid⟩, hget⟩, hstate⟩
    · rw [decide_eq_true_eq, one_lt_distinctValues hvalues]
      unfold TwoValued
      simp only [hmatching]
      constructor
      · rintro ⟨fact, ⟨hfact, hfield⟩, fact', ⟨hfact', hfield'⟩, hne⟩
        exact ⟨fact, hfact, fact', hfact', hfield, hfield', hne⟩
      · rintro ⟨fact, hfact, fact', hfact', hfield, hfield', hne⟩
        exact ⟨fact, ⟨hfact, hfield⟩, fact', ⟨hfact', hfield'⟩, hne⟩

theorem fieldState_acceptable_iff {field : String} {state : FieldState}
    (h : fieldState rt facts field index = .ok state) :
    state.state = .acceptable ↔ CitesState facts field index .acceptable ∧
      ¬ CitesState facts field index .conflict ∧ ¬ TwoValued rt facts field := by
  obtain ⟨states, conflicting, hstate, hcites, htwo⟩ := fieldState_combines h
  rw [hstate, combinedState_eq_acceptable, hcites, hcites, ← htwo, Bool.not_eq_true]

theorem CitesState.of_mem_iff {field : String}
    (h : ∀ fact, fact.field = field → (fact ∈ facts ↔ fact ∈ facts')) {state : EvidenceState} :
    CitesState facts field index state ↔ CitesState facts' field index state := by
  constructor
  · rintro ⟨fact, hfact, hfield, hcited⟩
    exact ⟨fact, (h fact hfield).mp hfact, hfield, hcited⟩
  · rintro ⟨fact, hfact, hfield, hcited⟩
    exact ⟨fact, (h fact hfield).mpr hfact, hfield, hcited⟩

theorem citesState_flatMap {field : String} {state : EvidenceState} :
    CitesState (records.flatMap (·.facts)) field index state ↔
      ∃ record ∈ records, CitesState record.facts field index state := by
  unfold CitesState
  constructor
  · rintro ⟨fact, hfact, hcited⟩
    obtain ⟨record, hrecord, hfact⟩ := List.mem_flatMap.mp hfact
    exact ⟨record, hrecord, fact, hfact, hcited⟩
  · rintro ⟨record, hrecord, fact, hfact, hcited⟩
    exact ⟨fact, List.mem_flatMap.mpr ⟨record, hrecord, hfact⟩, hcited⟩

theorem TwoValued.of_mem_iff {field : String}
    (h : ∀ fact, fact.field = field → (fact ∈ facts ↔ fact ∈ facts')) :
    TwoValued rt facts field ↔ TwoValued rt facts' field := by
  constructor
  · rintro ⟨fact, hfact, other, hother, hfield, hfield', hne⟩
    exact ⟨fact, (h fact hfield).mp hfact, other, (h other hfield').mp hother, hfield, hfield', hne⟩
  · rintro ⟨fact, hfact, other, hother, hfield, hfield', hne⟩
    exact ⟨fact, (h fact hfield).mpr hfact, other, (h other hfield').mpr hother, hfield, hfield',
      hne⟩

theorem not_twoValued_singleton (fact : ProductFact) (field : String) :
    ¬ TwoValued rt [fact] field := by
  rintro ⟨first, hfirst, second, hsecond, -, -, hne⟩
  rw [List.mem_singleton.mp hfirst, List.mem_singleton.mp hsecond] at hne
  exact hne rfl

/-! ## The facts that a bundle is scored on -/

/-- The field has exactly one fact in every component. -/
def OneFactEach (records : List RawCandidateRecord) (field : String) : Prop :=
  ∀ record ∈ records, ∃ fact, record.facts.filter (fun fact => fact.field = field) = [fact]

/-- The values of the components for a field. -/
def ownValues (records : List RawCandidateRecord) (field : String) : List FactValue :=
  (records.flatMap (fun record => record.facts.filter (fun fact => fact.field = field))).map
    (·.value)

/-- The components whose facts an aggregation reads. -/
def readBy (aggregation : Option Aggregation) (records : List RawCandidateRecord) :
    List RawCandidateRecord :=
  if aggregation = some .primaryComponent then records.getLast?.toList else records

/-- One component has one value, and several have one when they aggregate or agree. -/
def Combine (rt : Runtime) (aggregation : Option Aggregation) (records : List RawCandidateRecord)
    (field : String) : Prop :=
  (∃ kind ∈ aggregation, ∃ value,
    aggregateValues rt kind (ownValues records field) = .ok (some value)) ∨
  ¬ TwoValued rt ((readBy aggregation records).flatMap (·.facts)) field

/-- The facts are those of a field of some components, or stand for them as one. -/
structure StandsForField (rt : Runtime) (aggregation : Option Aggregation)
    (records : List RawCandidateRecord) (field : String) (facts : List ProductFact) : Prop where
  cites : ∀ index state, CitesState facts field index state ↔
    ∃ record ∈ readBy aggregation records, CitesState record.facts field index state
  combine : ¬ TwoValued rt facts field ↔ Combine rt aggregation records field

theorem flatten_of_mapM_single {α : Type} {lists : List (List α)} {elements : List α}
    (h : lists.mapM single? = some elements) : lists.flatten = elements := by
  induction lists generalizing elements with
  | nil =>
    cases h
    rfl
  | cons list lists ih =>
    rw [List.mapM_cons] at h
    obtain ⟨element, helement, h⟩ := Option.bind_eq_some_iff.mp h
    obtain ⟨rest, hrest, h⟩ := Option.bind_eq_some_iff.mp h
    cases h
    match list, helement with
    | [_], rfl => rw [List.flatten_cons, ih hrest, List.singleton_append]

theorem StandsForField.of_mem_iff {field : String}
    (h : StandsForField rt aggregation records field facts)
    (hmem : ∀ fact, fact.field = field → (fact ∈ facts' ↔ fact ∈ facts)) :
    StandsForField rt aggregation records field facts' := by
  refine ⟨fun index state => ?_, ?_⟩
  · rw [CitesState.of_mem_iff hmem, h.cites]
  · rw [TwoValued.of_mem_iff hmem, h.combine]

theorem standsForField_of_mem_iff {field : String} (hmem : ∀ fact, fact.field = field →
      (fact ∈ facts ↔ fact ∈ (readBy aggregation records).flatMap (·.facts)))
    (hnone : ∀ kind ∈ aggregation, ∀ value,
      aggregateValues rt kind (ownValues records field) ≠ .ok (some value)) :
    StandsForField rt aggregation records field facts := by
  refine ⟨fun index state => ?_, ?_⟩
  · rw [CitesState.of_mem_iff hmem, citesState_flatMap]
  · rw [TwoValued.of_mem_iff hmem]
    refine ⟨.inr, fun hcombine => hcombine.resolve_left ?_⟩
    rintro ⟨kind, hkind, value, hvalue⟩
    exact hnone kind hkind value hvalue

theorem field_of_aggregateField {bundleId field : String} {aggregation : Aggregation}
    (h : aggregateField rt records bundleId field aggregation = .ok facts) :
    ∀ fact ∈ facts, fact.field = field := by
  have hcomponents : ∀ own ∈ records.map (fun record =>
      record.facts.filter (fun fact => fact.field = field)), ∀ fact ∈ own, fact.field = field := by
    intro own hown fact hfact
    obtain ⟨record, -, rfl⟩ := List.mem_map.mp hown
    exact of_decide_eq_true (List.mem_filter.mp hfact).2
  unfold aggregateField at h
  dsimp only at h
  split at h
  · obtain rfl := pure_eq_ok.mp h
    intro fact hfact
    cases hlast : (records.map (fun record =>
        record.facts.filter (fun fact => fact.field = field))).getLast? with
    | none =>
      rw [hlast] at hfact
      cases hfact
    | some own =>
      rw [hlast] at hfact
      exact hcomponents own (List.mem_of_getLast? hlast) fact hfact
  · split at h
    · obtain rfl := pure_eq_ok.mp h
      intro fact hfact
      obtain ⟨own, hown, hfact⟩ := List.mem_flatten.mp hfact
      exact hcomponents own hown fact hfact
    next hown =>
      obtain ⟨value, -, h⟩ := bind_eq_ok.mp h
      split at h
      · obtain rfl := pure_eq_ok.mp h
        intro fact hfact
        rw [← flatten_of_mapM_single hown] at hfact
        obtain ⟨own, hin, hfact⟩ := List.mem_flatten.mp hfact
        exact hcomponents own hin fact hfact
      · obtain ⟨aggregated, hnew, h⟩ := bind_eq_ok.mp h
        obtain rfl := pure_eq_ok.mp h
        intro fact hfact
        rw [List.mem_singleton.mp hfact, ProductFact.new_eq_ok hnew]

theorem standsForField_of_aggregateField {bundleId field : String} {aggregation : Aggregation}
    (hone : OneFactEach records field)
    (h : aggregateField rt records bundleId field aggregation = .ok facts) :
    StandsForField rt (some aggregation) records field facts := by
  unfold aggregateField at h
  dsimp only at h
  split at h
  next hprimary =>
    -- Only the facts of the root are read.
    obtain rfl := pure_eq_ok.mp h
    rw [hprimary]
    refine standsForField_of_mem_iff (fun fact hfield => ?_) (fun kind hkind value hvalue => ?_)
    · rw [List.getLast?_map]
      unfold readBy
      rw [if_pos rfl]
      cases records.getLast? with
      | none => simp
      | some root => simp [hfield]
    · cases Option.mem_some_iff.mp hkind
      cases Except.ok.inj hvalue
  next hprimary =>
    have hread : readBy (some aggregation) records = records :=
      if_neg fun heq => hprimary (Option.some.inj heq)
    split at h
    next hmissing =>
      obtain ⟨own, hown, hnone⟩ := mapM_eq_none_iff.mp hmissing
      obtain ⟨record, hrecord, rfl⟩ := List.mem_map.mp hown
      obtain ⟨fact, hfact⟩ := hone record hrecord
      rw [hfact] at hnone
      cases hnone
    next own hown =>
      have hflat : records.flatMap (fun record =>
          record.facts.filter (fun fact => fact.field = field)) = own := by
        rw [List.flatMap_def, flatten_of_mapM_single hown]
      have hvalues : ownValues records field = own.map (·.value) := by
        unfold ownValues
        rw [hflat]
      have hmem : ∀ fact, fact.field = field →
          (fact ∈ own ↔ fact ∈ (readBy (some aggregation) records).flatMap (·.facts)) := by
        intro fact hfield
        rw [hread, ← hflat]
        simp only [List.mem_flatMap, List.mem_filter, hfield, decide_true, and_true]
      obtain ⟨value, hvalue, h⟩ := bind_eq_ok.mp h
      rw [← hvalues] at hvalue
      split at h
      next =>
        obtain rfl := pure_eq_ok.mp h
        refine standsForField_of_mem_iff hmem (fun kind hkind value hcombined => ?_)
        cases Option.mem_some_iff.mp hkind
        rw [hvalue] at hcombined
        cases Except.ok.inj hcombined
      next combined =>
        obtain ⟨aggregated, hnew, h⟩ := bind_eq_ok.mp h
        obtain rfl := pure_eq_ok.mp h
        have hdata := ProductFact.new_eq_ok hnew
        refine ⟨fun index state => ?_, ?_⟩
        · rw [← citesState_flatMap, ← CitesState.of_mem_iff hmem]
          unfold CitesState
          simp only [List.mem_singleton, exists_eq_left, hdata, SortedTuple.mem_items_of,
            List.mem_flatMap]
          constructor
          · rintro ⟨-, id, ⟨fact, hfact, hid⟩, hcited⟩
            have hfield : fact.field = field := by
              rw [← hflat] at hfact
              obtain ⟨record, -, hfact⟩ := List.mem_flatMap.mp hfact
              exact of_decide_eq_true (List.mem_filter.mp hfact).2
            exact ⟨fact, hfact, hfield, id, hid, hcited⟩
          · rintro ⟨fact, hfact, hfield, id, hid, hcited⟩
            exact ⟨trivial, id, ⟨fact, hfact, hid⟩, hcited⟩
        · exact iff_of_true (not_twoValued_singleton _ _) (.inl ⟨aggregation, rfl, combined, hvalue⟩)

/-- The components whose facts reach the score of a bundle; its landed total is that of all. -/
def scoredRecords (input : DecisionGraphInput) (records : List RawCandidateRecord)
    (field : String) : List RawCandidateRecord :=
  if field = landedTotal then records else readBy (aggregationOf input field) records

/-- The bundle has one value for the field; its landed total is the cost of its offers. -/
def ValuesCombine (rt : Runtime) (input : DecisionGraphInput) (records : List RawCandidateRecord)
    (field : String) : Prop :=
  if field = landedTotal then CompleteBound records (bundleOffers rt input records) (·.base)
  else Combine rt (aggregationOf input field) records field

theorem OneFactEach.not_twoValued {field : String} (h : OneFactEach records field)
    {record : RawCandidateRecord} (hrecord : record ∈ records) :
    ¬ TwoValued rt record.facts field := by
  obtain ⟨fact, hfact⟩ := h record hrecord
  have hmem : ∀ other, other.field = field → (other ∈ record.facts ↔ other ∈ [fact]) := by
    intro other hfield
    rw [← hfact, List.mem_filter, hfield, decide_eq_true rfl, and_iff_left rfl]
  rw [TwoValued.of_mem_iff hmem]
  exact not_twoValued_singleton fact field

theorem standsForField_of_single {record : RawCandidateRecord} {field : String}
    (hone : OneFactEach [record] field) :
    StandsForField rt aggregation [record] field record.facts := by
  have hread : readBy aggregation [record] = [record] := by
    unfold readBy
    split <;> rfl
  have htwo : ¬ TwoValued rt record.facts field := hone.not_twoValued List.mem_cons_self
  refine ⟨fun index state => ?_, iff_of_true htwo (.inr ?_)⟩
  · rw [hread]
    simp
  · rw [hread, List.flatMap_singleton]
    exact htwo

theorem standsForField_of_aggregated {field : String} (hne : records ≠ [])
    (hone : OneFactEach records field) (hread : aggregationOf input field ≠ none)
    (h : aggregatePreferenceFacts rt input records = .ok facts) :
    StandsForField rt (aggregationOf input field) records field facts := by
  unfold aggregatePreferenceFacts at h
  split at h
  next _ hlength =>
    cases h
    obtain ⟨record, rfl⟩ := List.length_eq_one_iff.mp hlength
    rw [List.flatMap_singleton]
    exact standsForField_of_single hone
  next hlast _ => exact absurd (List.getLast?_eq_none_iff.mp hlast) hne
  next =>
    unfold bundleFacts at h
    obtain ⟨rounds, hrounds, h⟩ := bind_eq_ok.mp h
    obtain rfl := pure_eq_ok.mp h
    obtain ⟨aggregation, hkind⟩ := Option.ne_none_iff_exists'.mp hread
    obtain ⟨criterion, hcriterion, rfl⟩ := Option.map_eq_some_iff.mp hkind
    have hentry : (field, criterion) ∈ (preferenceByField input).sortedItems :=
      mem_sortedBy.mpr (Dict.get?_eq_some_iff.mp hcriterion)
    obtain ⟨round, hround, hrun⟩ := exists_of_mapM_eq_ok hrounds hentry
    rw [hkind]
    refine (standsForField_of_aggregateField hone hrun).of_mem_iff (fun fact hfield => ?_)
    rw [List.mem_append, List.mem_flatten]
    constructor
    · rintro (hretained | ⟨other, hother, hfact⟩)
      · -- A field that a preference reads is not retained as it is.
        have hcontains := (List.mem_filter.mp hretained).2
        rw [hfield] at hcontains
        unfold Dict.contains at hcontains
        rw [hcriterion] at hcontains
        cases hcontains
      · obtain ⟨⟨key, criterion'⟩, hkey, hrun'⟩ := (mem_of_mapM_eq_ok hrounds).mp hother
        obtain rfl : key = field := (field_of_aggregateField hrun' fact hfact).symm.trans hfield
        have hget : (preferenceByField input).get? key = some criterion' :=
          Dict.get?_eq_some_iff.mpr (mem_sortedBy.mp hkey)
        obtain rfl : criterion = criterion' := Option.some.inj (hcriterion.symm.trans hget)
        obtain rfl : round = other := Except.ok.inj (hrun.symm.trans hrun')
        exact hfact
    · exact fun hfact => .inr ⟨round, hround, hfact⟩

theorem base_of_bundleCost {costs : List OfferCost} {paymentCount : Nat} {issues : List String}
    (h : bundleCost rt records costs = .ok (cost, paymentCount, issues)) :
    cost.base ≠ none ↔ CompleteBound records costs (·.base) := by
  have hbase := (bundleCost_eq_ok h).2 (·.base) (by simp [costBounds])
  by_cases hcomplete : CompleteBound records costs (·.base)
  · obtain ⟨money, hmoney, -⟩ := totalBound_eq_ok hcomplete hbase
    refine iff_of_true ?_ hcomplete
    rw [hmoney]
    exact Option.some_ne_none money
  · rw [totalBound_eq_none hcomplete] at hbase
    exact iff_of_false (not_not.mpr (Except.ok.inj hbase).symm) hcomplete

theorem base_of_combinedCost {offers : Dict String OfferCost} {paymentCount : Nat}
    {issues : List String} (h : combinedCost rt records offers = .ok (cost, paymentCount, issues)) :
    cost.base ≠ none ↔
      CompleteBound records (records.filterMap (fun r => offers.get? r.offerId)) (·.base) := by
  unfold combinedCost at h
  dsimp only at h
  split at h
  next hcosts =>
    cases h
    rw [hcosts]
    simp [CompleteBound]
  next => exact base_of_bundleCost h

theorem costFacts_singleton {evidence : Ids} {id : String}
    (h : costFacts cost evidence [id] = .ok facts) :
    (cost.base = none ∧ facts = []) ∨ (cost.base ≠ none ∧
      ∃ fact, facts = [fact] ∧ fact.field = landedTotal ∧ fact.evidenceIds = evidence) := by
  unfold costFacts at h
  split at h
  next hnone =>
    cases h
    exact .inl ⟨hnone, rfl⟩
  next base hsome =>
    rw [List.mapM_cons] at h
    obtain ⟨fact, hfact, h⟩ := bind_eq_ok.mp h
    obtain rfl := pure_eq_ok.mp h
    have hdata := ProductFact.new_eq_ok hfact
    refine .inr ⟨?_, fact, rfl, congrArg ProductFactData.field hdata,
      congrArg ProductFactData.evidenceIds hdata⟩
    rw [hsome]
    exact Option.some_ne_none base

section Material

variable {representatives : List RawCandidateRecord} {root : RawCandidateRecord}
  {material : PlanMaterial} {field : String} {state : FieldState}

theorem bundleField_acceptable_iff
    (hmaterial : packMaterial rt input (offerIndex rt input) representatives root = .ok material)
    (hone : OneFactEach (closure representatives root).1 field)
    (hread : aggregationOf input field ≠ none)
    (h : fieldState rt material.facts field index = .ok state) :
    state.state = .acceptable ↔
      ValuesCombine rt input (closure representatives root).1 field ∧
      (∃ record ∈ scoredRecords input (closure representatives root).1 field,
        CitesState record.facts field index .acceptable) ∧
      ¬ ∃ record ∈ scoredRecords input (closure representatives root).1 field,
        CitesState record.facts field index .conflict := by
  rw [fieldState_acceptable_iff h]
  unfold packMaterial at hmaterial
  dsimp only at hmaterial
  obtain ⟨⟨cost, paymentCount, issues⟩, hcost, hmaterial⟩ := bind_eq_ok.mp hmaterial
  obtain ⟨gateCosts, -, hmaterial⟩ := bind_eq_ok.mp hmaterial
  obtain ⟨aggregated, haggregated, hmaterial⟩ := bind_eq_ok.mp hmaterial
  obtain ⟨rootCosts, hrootCosts, hmaterial⟩ := bind_eq_ok.mp hmaterial
  obtain rfl := pure_eq_ok.mp hmaterial
  dsimp only at h ⊢
  unfold ValuesCombine scoredRecords
  by_cases hlanded : field = landedTotal
  · rw [if_pos hlanded, if_pos hlanded]
    have hmem : ∀ fact, fact.field = field → (fact ∈
        aggregated.filter (fun fact => fact.field ≠ landedTotal) ++ rootCosts ↔
          fact ∈ rootCosts) := by
      intro fact hfield
      simp [hfield, hlanded]
    rw [CitesState.of_mem_iff hmem, CitesState.of_mem_iff hmem, TwoValued.of_mem_iff hmem]
    have hbase := base_of_combinedCost hcost
    unfold bundleOffers
    rw [← hbase]
    rcases costFacts_singleton hrootCosts with
      ⟨hnone, rfl⟩ | ⟨hsome, fact, rfl, hfield, hevidence⟩
    · have hbase' : cost.base = none := hnone
      simp [CitesState, hbase']
    · have hbase' : cost.base ≠ none := hsome
      have hcites : ∀ state, CitesState [fact] field index state ↔
          ∃ record ∈ (closure representatives root).1,
            CitesState record.facts field index state := by
        intro state
        rw [← citesState_flatMap]
        unfold CitesState
        simp only [List.mem_singleton, exists_eq_left, hfield, hlanded, hevidence,
          SortedTuple.mem_items_of, List.mem_flatMap, List.mem_filter, decide_eq_true_eq]
        tauto
      rw [hcites, hcites, and_iff_left (not_twoValued_singleton fact field),
        and_iff_right hbase']
  · rw [if_neg hlanded, if_neg hlanded]
    have hne : (closure representatives root).1 ≠ [] := by
      have hlast := getLast?_closure representatives root
      exact fun hnil => by rw [hnil] at hlast; cases hlast
    have hmem : ∀ fact, fact.field = field → (fact ∈
        aggregated.filter (fun fact => fact.field ≠ landedTotal) ++ rootCosts ↔
          fact ∈ aggregated) := by
      intro fact hfield
      have hnot : fact ∉ rootCosts := fun hin =>
        hlanded (hfield.symm.trans (field_of_costFacts hrootCosts fact hin))
      simp [hfield, hlanded, hnot]
    have hstands := (standsForField_of_aggregated hne hone hread haggregated).of_mem_iff hmem
    rw [hstands.cites, hstands.cites, hstands.combine]
    tauto

end Material

/-! ## The facts of one component -/

theorem exists_fieldState {facts : List ProductFact} {field : String}
    (hhashed : ∀ fact ∈ facts, ∃ hash, valueHash rt fact.value = .ok hash) :
    ∃ state, fieldState rt facts field index = .ok state := by
  unfold fieldState
  dsimp only
  split
  · exact ⟨_, rfl⟩
  · obtain ⟨values, hvalues⟩ := exists_distinctValues
      (fun fact hfact => hhashed fact (List.mem_of_mem_filter hfact))
    rw [hvalues, ok_bind]
    exact ⟨_, rfl⟩

theorem hashed_of_packRepresentatives {representatives : List RawCandidateRecord}
    (hpacks : packRepresentatives rt input = .ok representatives) {record : RawCandidateRecord}
    (hrecord : record ∈ representatives) :
    ∀ fact ∈ record.facts, ∃ hash, valueHash rt fact.value = .ok hash := by
  obtain ⟨recallResult, hrecall, hpacks⟩ := bind_eq_ok.mp hpacks
  obtain ⟨source, hsource, hrun⟩ := (mem_of_mapM_eq_ok hpacks).mp hrecord
  obtain ⟨group, hstands, -⟩ := exists_group hrecall hsource
  have hfacts : record.facts = source.facts := by
    unfold withCanonicalOffer at hrun
    rw [RawCandidateRecord.new_eq_ok hrun]
  intro fact hfact
  rw [hfacts] at hfact
  obtain ⟨part, hpart, -, hvalue⟩ := hstands.facts.source fact hfact
  rw [← hvalue]
  exact hstands.facts.hashed part hpart

theorem OneFactEach.acceptable_iff {records : List RawCandidateRecord} {field : String}
    (h : OneFactEach records field) {record : RawCandidateRecord} (hrecord : record ∈ records)
    (hhashed : ∀ fact ∈ record.facts, ∃ hash, valueHash rt fact.value = .ok hash) :
    Acceptable rt record.facts field index ↔ CitesState record.facts field index .acceptable ∧
      ¬ CitesState record.facts field index .conflict := by
  obtain ⟨state, hstate⟩ : ∃ state, fieldState rt record.facts field index = .ok state :=
    exists_fieldState hhashed
  have hiff := fieldState_acceptable_iff hstate
  rw [and_iff_left (h.not_twoValued hrecord)] at hiff
  rw [← hiff]
  constructor
  · rintro ⟨state', hstate', hacceptable⟩
    rw [hstate] at hstate'
    rw [Except.ok.inj hstate']
    exact hacceptable
  · exact fun hacceptable => ⟨state, hstate, hacceptable⟩

/-! ## Scores -/

/-- Some of the evidence is in this state for the field. -/
def IdsCite (ids : List String) (field : String) (index : AssessmentIndex)
    (state : EvidenceState) : Prop :=
  ∃ id ∈ ids, ∃ a, index.get? (toLex (id, field)) = some a ∧ a.state = state

theorem evidenceState_unknownSatisfaction (criterion : PreferenceCriterion)
    (evidenceIds : List String) (state : EvidenceState) :
    (unknownSatisfaction criterion evidenceIds state).evidenceState = state := by
  unfold unknownSatisfaction
  split <;> rfl

variable {criterion : PreferenceCriterion}

theorem evidenceState_factSatisfaction {state : FieldState} {satisfaction : Satisfaction}
    (h : factSatisfaction rt criterion state = .ok satisfaction) :
    satisfaction.evidenceState = state.state := by
  unfold factSatisfaction at h
  split at h
  · obtain ⟨values, -, h⟩ := bind_eq_ok.mp h
    split at h
    · obtain rfl := pure_eq_ok.mp h
      exact evidenceState_unknownSatisfaction _ _ _
    · obtain rfl := pure_eq_ok.mp h
      rfl
  · obtain rfl := pure_eq_ok.mp h
    exact evidenceState_unknownSatisfaction _ _ _

theorem evidenceState_priorSatisfaction (criterion : PreferenceCriterion)
    (evidenceIds : List String) :
    (priorSatisfaction criterion evidenceIds).evidenceState = .unknown := by
  unfold priorSatisfaction
  split <;> rfl

theorem observedSatisfaction_acceptable_iff {observed : OutcomeObservation} :
    (observedSatisfaction criterion observed index).evidenceState = .acceptable ↔
      IdsCite observed.evidenceIds.items criterion.field index .acceptable ∧
        ¬ IdsCite observed.evidenceIds.items criterion.field index .conflict := by
  have hcites : ∀ state, state ∈ (assessmentsFor index observed.evidenceIds.items
      criterion.field).map (·.state) ↔
        IdsCite observed.evidenceIds.items criterion.field index state := by
    intro state
    unfold assessmentsFor IdsCite
    simp only [List.mem_map, List.mem_filterMap]
    constructor
    · rintro ⟨a, ⟨id, hid, hget⟩, hstate⟩
      exact ⟨id, hid, a, hget, hstate⟩
    · rintro ⟨id, hid, a, hget, hstate⟩
      exact ⟨a, ⟨id, hid, hget⟩, hstate⟩
  have hstate : (observedSatisfaction criterion observed index).evidenceState =
      combinedState ((assessmentsFor index observed.evidenceIds.items
        criterion.field).map (·.state)) false := by
    unfold observedSatisfaction
    dsimp only
    split
    next h => rw [h]
    · exact evidenceState_unknownSatisfaction _ _ _
  rw [hstate, combinedState_eq_acceptable, hcites, hcites, and_iff_left rfl]

theorem evidenceState_scoreCriterion {material : PlanMaterial} {score : ScoreComponent}
    {reasons : List String}
    (h : scoreCriterion rt input material index criterion = .ok (score, reasons)) :
    score.criterionId = criterion.criterionId ∧
    ∃ state, fieldState rt material.facts criterion.field index = .ok state ∧
      (criterion.normalization ≠ .outcomeRate → score.evidenceState = state.state) ∧
      (criterion.normalization = .outcomeRate → (score.evidenceState = .acceptable ↔
        ∃ observed, outcomeValue input material.outcomeSubjectId criterion.criterionId =
            some observed ∧
          IdsCite observed.evidenceIds.items criterion.field index .acceptable ∧
          ¬ IdsCite observed.evidenceIds.items criterion.field index .conflict)) := by
  unfold scoreCriterion at h
  obtain ⟨state, hstate, h⟩ := bind_eq_ok.mp h
  dsimp only at h
  split at h
  next hkind =>
    split at h
    next hnone =>
      obtain ⟨rfl, -⟩ := Prod.mk.inj (pure_eq_ok.mp h)
      refine ⟨rfl, state, hstate, fun hne => absurd hkind hne, fun _ => ?_⟩
      rw [hnone]
      simp [evidenceState_priorSatisfaction]
    next observed hsome =>
      obtain ⟨rfl, -⟩ := Prod.mk.inj (pure_eq_ok.mp h)
      refine ⟨rfl, state, hstate, fun hne => absurd hkind hne, fun _ => ?_⟩
      rw [hsome]
      simp [observedSatisfaction_acceptable_iff]
  next hkind =>
    obtain ⟨satisfaction, hsatisfaction, h⟩ := bind_eq_ok.mp h
    obtain ⟨rfl, -⟩ := Prod.mk.inj (pure_eq_ok.mp h)
    exact ⟨rfl, state, hstate, fun _ => evidenceState_factSatisfaction hsatisfaction,
      fun heq => absurd heq hkind⟩

/-- The facts alone do not make the field acceptable: no acceptable evidence, or a dispute. -/
def Unsupported (facts : List ProductFact) (field : String) (index : AssessmentIndex) : Prop :=
  ¬ CitesState facts field index .acceptable ∨ CitesState facts field index .conflict

/-- The score of the bundle is acceptable on evidence that some component does not have. -/
inductive BorrowsEvidence (rt : Runtime) (input : DecisionGraphInput)
    (records : List RawCandidateRecord) (subjectId : String) (criterion : PreferenceCriterion)
    (index : AssessmentIndex) : Prop
  | mixed (hkind : criterion.normalization ≠ .outcomeRate)
      (hcombine : ValuesCombine rt input records criterion.field)
      (hsome : ∃ record ∈ scoredRecords input records criterion.field,
        CitesState record.facts criterion.field index .acceptable)
      (hagree : ¬ ∃ record ∈ scoredRecords input records criterion.field,
        CitesState record.facts criterion.field index .conflict)
      (hlacks : ∃ record ∈ records, Unsupported record.facts criterion.field index)
  | observed (hkind : criterion.normalization = .outcomeRate) (observed : OutcomeObservation)
      (houtcome : outcomeValue input subjectId criterion.criterionId = some observed)
      (hsome : IdsCite observed.evidenceIds.items criterion.field index .acceptable)
      (hagree : ¬ IdsCite observed.evidenceIds.items criterion.field index .conflict)
      (hlacks : ∃ record ∈ records, Unsupported record.facts criterion.field index)

theorem aggregationOf_ne_none
    (h : criterion ∈ input.preferences) : aggregationOf input criterion.field ≠ none := by
  unfold aggregationOf
  rw [Ne, Option.map_eq_none_iff, Dict.get?_eq_none_iff, not_not]
  unfold preferenceByField
  rw [Dict.mem_keys_ofList, List.map_map]
  exact List.mem_map_of_mem h

/-- A score of a closed bundle whose components have one fact each for the field of the
    criterion. -/
structure BundleScore (rt : Runtime) (input : DecisionGraphInput)
    (representatives : List RawCandidateRecord) (root : RawCandidateRecord)
    (assessments : List EvidenceAssessment) (criterion : PreferenceCriterion)
    (score : ScoreComponent) : Prop where
  packs : packRepresentatives rt input = .ok representatives
  root_mem : root ∈ representatives
  criterion_mem : criterion ∈ input.preferences
  oneFact : OneFactEach (closure representatives root).1 criterion.field
  scored : ∃ material scores reasons,
    packMaterial rt input (offerIndex rt input) representatives root = .ok material ∧
      scoreComponents rt input material assessments = .ok (scores, reasons) ∧
      score ∈ scores ∧ score.criterionId = criterion.criterionId

/-- The score is acceptable only if the fact of every component alone is. -/
def ScoreSupported (rt : Runtime) (representatives : List RawCandidateRecord)
    (root : RawCandidateRecord) (assessments : List EvidenceAssessment)
    (criterion : PreferenceCriterion) (score : ScoreComponent) : Prop :=
  score.evidenceState = .acceptable → ∀ record ∈ (closure representatives root).1,
    Acceptable rt record.facts criterion.field (assessmentIndex assessments)

/-- The score of a bundle is acceptable only on acceptable facts of all its components,
    unless a component borrows the evidence of another or of an observation. -/
theorem scoreSupported_iff {representatives : List RawCandidateRecord}
    {root : RawCandidateRecord} {assessments : List EvidenceAssessment}
    {criterion : PreferenceCriterion} {score : ScoreComponent}
    (h : BundleScore rt input representatives root assessments criterion score) :
    ScoreSupported rt representatives root assessments criterion score ↔
      ¬ BorrowsEvidence rt input (closure representatives root).1 root.productId criterion
        (assessmentIndex assessments) := by
  obtain ⟨hpacks, hroot, hcriterion, hone, material, scores, reasons, hmaterial, hscores, hscore,
    hid⟩ := h
  have hsubject : material.outcomeSubjectId = root.productId := by
    unfold packMaterial at hmaterial
    simp only [bind_eq_ok, pure_eq_ok] at hmaterial
    obtain ⟨_, -, _, -, _, -, _, -, rfl⟩ := hmaterial
    rfl
  have hown : ∀ record ∈ (closure representatives root).1,
      Acceptable rt record.facts criterion.field (assessmentIndex assessments) ↔
        ¬ Unsupported record.facts criterion.field (assessmentIndex assessments) := by
    intro record hrecord
    rw [hone.acceptable_iff hrecord (hashed_of_packRepresentatives hpacks
      (closure_subset hroot hrecord))]
    unfold Unsupported
    rw [not_or, not_not]
  -- The score is that of the criterion with its id.
  obtain ⟨scored, hscored, hpair⟩ := bind_eq_ok.mp hscores
  obtain ⟨rfl, -⟩ := Prod.mk.inj (pure_eq_ok.mp hpair)
  obtain ⟨⟨score', own⟩, hmem, rfl⟩ := List.mem_map.mp hscore
  obtain ⟨criterion', hcriterion', hrun⟩ := (mem_of_mapM_eq_ok hscored).mp hmem
  obtain ⟨hid', state, hstate, hfacts, houtcome⟩ := evidenceState_scoreCriterion hrun
  obtain rfl : criterion = criterion' :=
    List.inj_on_of_nodup_map input.preferences_nodup hcriterion
      (mem_sortedBy.mp (List.mem_of_mem_filter hcriterion')) (hid.symm.trans hid')
  rw [hsubject] at houtcome
  by_cases hkind : criterion.normalization = .outcomeRate
  · unfold ScoreSupported
    rw [houtcome hkind]
    constructor
    · rintro hholds (⟨hne, -, -, -, -⟩ | ⟨-, observed, hget, hsome, hagree, record, hrecord, hlacks⟩)
      · exact hne hkind
      · exact (hown record hrecord).mp (hholds ⟨observed, hget, hsome, hagree⟩ record hrecord) hlacks
    · rintro hnot ⟨observed, hget, hsome, hagree⟩ record hrecord
      exact (hown record hrecord).mpr fun hlacks =>
        hnot (.observed hkind observed hget hsome hagree ⟨record, hrecord, hlacks⟩)
  · unfold ScoreSupported
    rw [hfacts hkind,
      bundleField_acceptable_iff hmaterial hone (aggregationOf_ne_none hcriterion) hstate]
    constructor
    · rintro hholds (⟨-, hcombine, hsome, hagree, record, hrecord, hlacks⟩ | ⟨heq, -, -, -, -, -⟩)
      · exact (hown record hrecord).mp (hholds ⟨hcombine, hsome, hagree⟩ record hrecord) hlacks
      · exact hkind heq
    · rintro hnot ⟨hcombine, hsome, hagree⟩ record hrecord
      exact (hown record hrecord).mpr fun hlacks =>
        hnot (.mixed hkind hcombine hsome hagree ⟨record, hrecord, hlacks⟩)

/-! ## A component without evidence -/

namespace Sample

/-- A plan is audited when all its components are. -/
def audited : PreferenceCriterion where
  criterionId := "audited"
  field := "audited"
  weight := 1
  coverageWeight := 1
  normalization := .booleanEquals
  expected := .bool true
  sourceFactIds := .of []
  appliesToActions := []
  allowedSatisfactions := .of [0, 1]
  aggregation := .all
  points_sorted := uptime.points_sorted

def auditedFact (evidenceId : String) : ProductFactData where
  field := "audited"
  value := .bool true
  evidenceIds := .of [evidenceId]

/-- The fact of the required product cites evidence that does not exist. -/
def auditedInput : DecisionGraphInput :=
  { bundleInput with
    candidates :=
      [{ crm with facts := [⟨auditedFact "e1", by decide +kernel⟩], admitted := by decide +kernel },
        { sso with facts := [⟨auditedFact "e2", by decide +kernel⟩], admitted := by decide +kernel }]
    evidencePolicies := [policy, { hostingPolicy with field := "audited" }]
    gates := []
    preferences := [audited]
    outcomeValues := []
    candidates_nodup := by decide +kernel
    evidencePolicies_nodup := by decide +kernel
    gates_nodup := Sample.input.gates_nodup
    preferences_nodup := by decide +kernel }

end Sample

/-- The run of a score that is acceptable next to a component that is not. -/
def borrowedRun (rt : Runtime) (input : DecisionGraphInput) (criterion : PreferenceCriterion)
    (representatives : List RawCandidateRecord) (root : RawCandidateRecord) : Bool :=
  (recallAndDeduplicate rt input).toOption.any (fun recallResult =>
    (assessEvidence rt input recallResult).toOption.any (fun assessments =>
      (packMaterial rt input (offerIndex rt input) representatives root).toOption.any
        (fun material => (scoreComponents rt input material assessments).toOption.any
          (fun scored => scored.1.any (fun score =>
            decide (score.criterionId = criterion.criterionId) &&
              decide (score.evidenceState = .acceptable)))) &&
      ((closure representatives root).1.all (fun record =>
          (record.facts.filter (fun fact => fact.field = criterion.field)).length == 1) &&
        (closure representatives root).1.any (fun record =>
          (fieldState rt record.facts criterion.field (assessmentIndex assessments)).toOption.any
            (fun state : FieldState => decide (state.state ≠ .acceptable))))))

theorem exists_borrowed {criterion : PreferenceCriterion}
    (hcriterion : criterion ∈ input.preferences)
    (h : (packRepresentatives rt input).toOption.any (fun representatives =>
      representatives.any (fun root => borrowedRun rt input criterion representatives root)) = true) :
    ∃ representatives root assessments score,
      BundleScore rt input representatives root assessments criterion score ∧
      ¬ ScoreSupported rt representatives root assessments criterion score := by
  obtain ⟨representatives, hpacks, h⟩ := exists_of_toOption_any h
  obtain ⟨root, hroot, h⟩ := List.any_eq_true.mp h
  obtain ⟨recallResult, -, h⟩ := exists_of_toOption_any h
  obtain ⟨assessments, -, h⟩ := exists_of_toOption_any h
  obtain ⟨hscored, h⟩ := Bool.and_eq_true_iff.mp h
  obtain ⟨hone, hlacks⟩ := Bool.and_eq_true_iff.mp h
  obtain ⟨material, hmaterial, hscored⟩ := exists_of_toOption_any hscored
  obtain ⟨⟨scores, reasons⟩, hscores, hscored⟩ := exists_of_toOption_any hscored
  obtain ⟨score, hscore, hscored⟩ := List.any_eq_true.mp hscored
  obtain ⟨hid, hacceptable⟩ := Bool.and_eq_true_iff.mp hscored
  obtain ⟨record, hrecord, hlacks⟩ := List.any_eq_true.mp hlacks
  obtain ⟨state, hstate, hnot⟩ := exists_of_toOption_any hlacks
  refine ⟨representatives, root, assessments, score,
    ⟨hpacks, hroot, hcriterion, fun own hown => ?_, material, scores, reasons, hmaterial, hscores,
      hscore, of_decide_eq_true hid⟩, fun hsupported => ?_⟩
  · exact List.length_eq_one_iff.mp (eq_of_beq (List.all_eq_true.mp hone own hown))
  · obtain ⟨state', hstate', hown⟩ := hsupported (of_decide_eq_true hacceptable) record hrecord
    rw [hstate] at hstate'
    obtain rfl := Except.ok.inj hstate'
    exact of_decide_eq_true hnot hown

/-- A bundle is scored as audited on acceptable evidence although the required product cites
    none. -/
theorem audited_on_borrowed_evidence : ∃ representatives root assessments score,
    BundleScore .ascii Sample.auditedInput representatives root assessments Sample.audited score ∧
      ¬ ScoreSupported .ascii representatives root assessments Sample.audited score :=
  exists_borrowed List.mem_cons_self (by rw [Runtime.ascii_eq]; decide +kernel)

theorem scoreSupported_iff_sample : ∃ representatives root assessments score,
    BundleScore .ascii Sample.auditedInput representatives root assessments Sample.audited score ∧
      (ScoreSupported .ascii representatives root assessments Sample.audited score ↔
        ¬ BorrowsEvidence .ascii Sample.auditedInput (closure representatives root).1
          root.productId Sample.audited (assessmentIndex assessments)) := by
  have hborrowed : ∃ representatives root assessments score,
      BundleScore .ascii Sample.auditedInput representatives root assessments Sample.audited score ∧
        ¬ ScoreSupported .ascii representatives root assessments Sample.audited score :=
    exists_borrowed List.mem_cons_self (by rw [Runtime.ascii_eq]; decide +kernel)
  obtain ⟨representatives, root, assessments, score, hscore, -⟩ := hborrowed
  exact ⟨representatives, root, assessments, score, hscore, scoreSupported_iff hscore⟩

end DecisionEngine
