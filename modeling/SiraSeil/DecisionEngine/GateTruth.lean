-- SUMMARY: What the evidence says about a predicate, how a gate's truth and reasons follow from it, and where the two disagree.
import SiraSeil.DecisionEngine.Evaluation
import SiraSeil.Domain.Hashing

/-!
# Gate truth

A predicate of a gate is conflicting, unresolved, or decided component by
component. The trace of a gate is a list of such readings, so both its truth and
its reasons are functions of them: a reading that is not decided leaves a
reason, and the truth combines all readings by the mode of the gate.
-/

namespace DecisionEngine

open Domain Sorting Raising

variable {rt : Runtime}

/-! ## Acceptable evidence is single-valued -/

theorem distinctValues_ne_nil {facts : List ProductFact} {values : List FactValue}
    (h : distinctValues rt facts = .ok values) (hne : facts ≠ []) : values ≠ [] := by
  unfold distinctValues at h
  obtain ⟨hashed, hhashed, hvalues⟩ := bind_eq_ok.mp h
  obtain ⟨fact, hfact⟩ := List.exists_mem_of_ne_nil facts hne
  obtain ⟨entry, hentry, -⟩ := exists_of_mapM_eq_ok hhashed hfact
  have hkey : entry.1 ∈ (Dict.ofList hashed).items.map Prod.fst :=
    Dict.mem_keys_ofList.mpr (List.mem_map_of_mem hentry)
  intro hempty
  rw [hempty] at hvalues
  have hitems : (Dict.ofList hashed).items = [] := by
    simpa [Dict.sortedItems] using pure_eq_ok.mp hvalues
  rw [hitems] at hkey
  exact absurd hkey (by simp)

theorem fieldState_acceptable {facts : List ProductFact} {field : String}
    {index : AssessmentIndex} {state : FieldState}
    (h : fieldState rt facts field index = .ok state) (hacc : state.state = .acceptable) :
    ∃ value, state.values = [value] := by
  unfold fieldState at h
  dsimp only at h
  split at h
  · cases h
    cases hacc
  · rename_i hmatching
    obtain ⟨values, hvalues, hstate⟩ := bind_eq_ok.mp h
    cases hstate
    have hne : values ≠ [] := distinctValues_ne_nil hvalues (by simpa using hmatching)
    have hlen : ¬ 1 < values.length := by
      intro hlt
      simp [combinedState, hlt] at hacc
    match values, hne, hlen with
    | [value], _, _ => exact ⟨value, rfl⟩
    | _ :: _ :: _, _, hlen => simp at hlen

/-! ## Readings of a predicate -/

/-- What the evidence says about a predicate: nothing certain, or one truth value
    for every component. -/
inductive Reading
  | conflict
  | unresolved
  | decided (truths : List Bool)

def Reading.states : Reading → List TruthValue
  | .conflict => [.conflict]
  | .unresolved => [.unknown]
  | .decided truths => truths.map truthOf

/-- The field of a component has one acceptable value, on which the predicate has
    the given truth. -/
def ComponentReads (rt : Runtime) (predicate : Predicate) (state : FieldState) (truth : Bool) :
    Prop :=
  state.state = .acceptable ∧
    ∃ value, state.values = [value] ∧ predicateMatches rt value predicate = .ok truth

/-- A predicate of a seller gate is read from the buyer's values, any other from the
    evidence of all components. -/
inductive Reads (rt : Runtime) (gate : GateRule) (material : PlanMaterial)
    (values : Dict String FactValue) (index : AssessmentIndex) (predicate : Predicate) :
    Reading → Prop
  | missing (hseller : gate.isSeller = true) (hvalue : values.get? predicate.field = none) :
    Reads rt gate material values index predicate .unresolved
  | value {value : FactValue} {truth : Bool} (hseller : gate.isSeller = true)
      (hvalue : values.get? predicate.field = some value)
      (hmatch : predicateMatches rt value predicate = .ok truth) :
    Reads rt gate material values index predicate (.decided [truth])
  | conflicting {states : List FieldState} (hbuyer : gate.isSeller = false)
      (hstates : componentFieldStates rt material predicate.field index = .ok states)
      (hconflict : ∃ s ∈ states, s.state = .conflict) :
    Reads rt gate material values index predicate .conflict
  | open {states : List FieldState} (hbuyer : gate.isSeller = false)
      (hstates : componentFieldStates rt material predicate.field index = .ok states)
      (hclear : ∀ s ∈ states, s.state ≠ .conflict) (hopen : ∃ s ∈ states, s.state ≠ .acceptable) :
    Reads rt gate material values index predicate .unresolved
  | resolved {states : List FieldState} {truths : List Bool} (hbuyer : gate.isSeller = false)
      (hstates : componentFieldStates rt material predicate.field index = .ok states)
      (htruths : List.Forall₂ (ComponentReads rt predicate) states truths) :
    Reads rt gate material values index predicate (.decided truths)

section PredicateTrace

variable {gate : GateRule} {material : PlanMaterial} {values : Dict String FactValue}
  {index : AssessmentIndex} {predicate : Predicate}

theorem componentTruths_eq_ok {states : List FieldState} {truths : List TruthValue}
    (hvalues : ∀ s ∈ states, s.state = .acceptable ∧ ∃ value, s.values = [value]) :
    states.mapM (fun s => do
        return truthOf (← s.values.allM (fun value => predicateMatches rt value predicate))) =
      .ok truths ↔
    ∃ bools, truths = bools.map truthOf ∧ List.Forall₂ (ComponentReads rt predicate) states bools := by
  rw [mapM_eq_ok]
  induction states generalizing truths with
  | nil =>
    constructor
    · intro h
      cases h
      exact ⟨[], rfl, List.Forall₂.nil⟩
    · rintro ⟨bools, rfl, hall⟩
      cases hall
      exact List.Forall₂.nil
  | cons s states ih =>
    obtain ⟨hacc, value, hvalue⟩ := hvalues s List.mem_cons_self
    have htail := fun {truths} => @ih truths (fun s' hs' => hvalues s' (List.mem_cons_of_mem s hs'))
    have hone : ∀ truth, (do
        return truthOf (← s.values.allM (fun value => predicateMatches rt value predicate)) :
          Py TruthValue) = .ok truth ↔
        ∃ b, truth = truthOf b ∧ predicateMatches rt value predicate = .ok b := by
      intro truth
      rw [hvalue]
      cases hmatch : predicateMatches rt value predicate with
      | error e => simp [List.allM, hmatch]
      | ok b => cases b <;> simp [List.allM, hmatch] <;> exact eq_comm
    constructor
    · intro h
      obtain ⟨truth, rest, hhead, hrest, rfl⟩ := List.forall₂_cons_left_iff.mp h
      obtain ⟨b, rfl, hmatch⟩ := (hone truth).mp hhead
      obtain ⟨bools, rfl, hall⟩ := htail.mp hrest
      exact ⟨b :: bools, rfl, List.Forall₂.cons ⟨hacc, value, hvalue, hmatch⟩ hall⟩
    · rintro ⟨bools, rfl, hall⟩
      obtain ⟨b, rest, ⟨-, value', hvalue', hmatch⟩, hrest, rfl⟩ :=
        List.forall₂_cons_left_iff.mp hall
      obtain rfl : value' = value := by simpa [hvalue] using hvalue'.symm
      exact List.Forall₂.cons ((hone _).mpr ⟨b, rfl, hmatch⟩) (htail.mpr ⟨rest, rfl, hrest⟩)

/-- The states and reasons a trace shows for a reading: only a decided predicate
    leaves no reason, and no other reason clears a plan. -/
structure GateTrace.Shows (trace : GateTrace) (reading : Reading) : Prop where
  states : trace.states = reading.states
  reasons : trace.reasons = [] ↔ ∃ truths, reading = .decided truths
  blocking : ∀ reason ∈ trace.reasons, reason.status.rankable = false

theorem sellerPredicateTrace_shows {trace : GateTrace} (hseller : gate.isSeller = true)
    (h : sellerPredicateTrace rt values predicate = .ok trace) :
    ∃ reading, Reads rt gate material values index predicate reading ∧ trace.Shows reading := by
  unfold sellerPredicateTrace at h
  cases hvalue : values.get? predicate.field with
  | none =>
    rw [hvalue] at h
    cases h
    exact ⟨.unresolved, .missing hseller hvalue, rfl, by simp, by simp [CandidateStatus.rankable]⟩
  | some value =>
    rw [hvalue] at h
    obtain ⟨truth, hmatch, htrace⟩ := bind_eq_ok.mp h
    cases htrace
    exact ⟨.decided [truth], .value hseller hvalue hmatch, rfl, by simp, by simp⟩

/-- Without conflicting, stale or unknown states every field is acceptable, and then
    it has a value. -/
theorem states_acceptable {states : List FieldState}
    (hstates : componentFieldStates rt material predicate.field index = .ok states)
    (hall : ∀ s ∈ states, s.state = .acceptable) :
    ∀ s ∈ states, s.state = .acceptable ∧ ∃ value, s.values = [value] := by
  intro s hs
  obtain ⟨componentId, -, hfield⟩ := (mem_of_mapM_eq_ok hstates).mp hs
  exact ⟨hall s hs, fieldState_acceptable hfield (hall s hs)⟩

theorem buyerPredicateTrace_shows {trace : GateTrace} (hbuyer : gate.isSeller = false)
    (h : buyerPredicateTrace rt material index predicate = .ok trace) :
    ∃ reading, Reads rt gate material values index predicate reading ∧ trace.Shows reading := by
  unfold buyerPredicateTrace at h
  obtain ⟨states, hstates, h⟩ := bind_eq_ok.mp h
  dsimp only at h
  split at h
  · rename_i hconflict
    cases h
    refine ⟨.conflict, .conflicting hbuyer hstates ?_, rfl, by simp, by simp [CandidateStatus.rankable]⟩
    simpa [List.mem_map] using hconflict
  · rename_i hclear
    have hnone : ∀ s ∈ states, s.state ≠ .conflict := fun s hs heq =>
      hclear (List.mem_map.mpr ⟨s, hs, heq⟩)
    split at h
    · rename_i hstale
      cases h
      obtain ⟨s, hs, heq⟩ := List.mem_map.mp hstale
      exact ⟨.unresolved, .open hbuyer hstates hnone ⟨s, hs, by simp [heq]⟩, rfl, by simp,
        by simp [CandidateStatus.rankable]⟩
    · rename_i hfresh
      split at h
      · rename_i hunknown
        cases h
        refine ⟨.unresolved, .open hbuyer hstates hnone ?_, rfl, by simp,
          by simp [CandidateStatus.rankable]⟩
        rcases hunknown with hunknown | hempty
        · obtain ⟨s, hs, heq⟩ := List.mem_map.mp hunknown
          exact ⟨s, hs, by simp [heq]⟩
        · obtain ⟨s, hs, hvalues⟩ := List.any_eq_true.mp hempty
          refine ⟨s, hs, fun hacc => ?_⟩
          obtain ⟨componentId, -, hfield⟩ := (mem_of_mapM_eq_ok hstates).mp hs
          obtain ⟨value, hvalue⟩ := fieldState_acceptable hfield hacc
          simp [hvalue] at hvalues
      · rename_i hknown
        have hacc : ∀ s ∈ states, s.state = .acceptable := by
          intro s hs
          cases hstate : s.state with
          | acceptable => rfl
          | unknown => exact absurd (Or.inl (List.mem_map.mpr ⟨s, hs, hstate⟩)) hknown
          | stale => exact absurd (List.mem_map.mpr ⟨s, hs, hstate⟩) hfresh
          | conflict => exact absurd hstate (hnone s hs)
        obtain ⟨truths, htruths, htrace⟩ := bind_eq_ok.mp h
        cases htrace
        obtain ⟨bools, rfl, hall⟩ :=
          (componentTruths_eq_ok (states_acceptable hstates hacc)).mp htruths
        exact ⟨.decided bools, .resolved hbuyer hstates hall, rfl, by simp, by simp⟩

theorem predicateTrace_shows {trace : GateTrace}
    (h : predicateTrace rt gate material values index predicate = .ok trace) :
    ∃ reading, Reads rt gate material values index predicate reading ∧ trace.Shows reading := by
  unfold predicateTrace at h
  split at h
  · rename_i hseller
    exact sellerPredicateTrace_shows hseller h
  · rename_i hbuyer
    exact buyerPredicateTrace_shows (by simpa using hbuyer) h

theorem Reads.exists_trace {reading : Reading}
    (h : Reads rt gate material values index predicate reading) :
    ∃ trace, predicateTrace rt gate material values index predicate = .ok trace ∧
      trace.states = reading.states := by
  unfold predicateTrace
  cases h with
  | missing hseller hvalue =>
    rw [if_pos hseller]
    simp only [sellerPredicateTrace, hvalue]
    exact ⟨_, rfl, rfl⟩
  | value hseller hvalue hmatch =>
    rw [if_pos hseller]
    simp only [sellerPredicateTrace, hvalue, hmatch, ok_bind]
    exact ⟨_, rfl, rfl⟩
  | conflicting hbuyer hstates hconflict =>
    have hmem : EvidenceState.conflict ∈ List.map FieldState.state _ := List.mem_map.mpr hconflict
    simp only [hbuyer, Bool.false_eq_true, ↓reduceIte, buyerPredicateTrace, hstates,
      ok_bind, hmem]
    exact ⟨_, rfl, rfl⟩
  | «open» hbuyer hstates hclear hopen =>
    rename_i states
    obtain ⟨s, hs, hne⟩ := hopen
    have hconflict : EvidenceState.conflict ∉ states.map (·.state) := by
      simpa [List.mem_map] using hclear
    simp only [hbuyer, Bool.false_eq_true, ↓reduceIte, buyerPredicateTrace, hstates,
      ok_bind, hconflict]
    split
    · exact ⟨_, rfl, rfl⟩
    · rename_i hfresh
      have hunknown : EvidenceState.unknown ∈ states.map (·.state) := by
        cases hstate : s.state with
        | acceptable => exact absurd hstate hne
        | unknown => exact List.mem_map.mpr ⟨s, hs, hstate⟩
        | stale => exact absurd (List.mem_map.mpr ⟨s, hs, hstate⟩) hfresh
        | conflict => exact absurd hstate (hclear s hs)
      simp only [hunknown, true_or, ↓reduceIte]
      exact ⟨_, rfl, rfl⟩
  | resolved hbuyer hstates htruths =>
    rename_i states truths
    have hacc : ∀ s ∈ states, s.state = .acceptable ∧ ∃ value, s.values = [value] := by
      intro s hs
      obtain ⟨i, hi, hget⟩ := List.mem_iff_getElem.mp hs
      have hread := htruths.get hi (htruths.length_eq ▸ hi)
      simp only [List.get_eq_getElem, hget] at hread
      obtain ⟨hstate, value, hvalue, -⟩ := hread
      exact ⟨hstate, value, hvalue⟩
    have hnot : ∀ state, state ≠ EvidenceState.acceptable → state ∉ states.map (·.state) := by
      intro state hne hmem
      obtain ⟨s, hs, rfl⟩ := List.mem_map.mp hmem
      exact hne (hacc s hs).1
    have hvalues : states.any (fun s => s.values.isEmpty) = false := by
      refine List.any_eq_false.mpr (fun s hs => ?_)
      obtain ⟨-, value, hvalue⟩ := hacc s hs
      simp [hvalue]
    have hmapM := (componentTruths_eq_ok hacc).mpr ⟨truths, rfl, htruths⟩
    simp only [hbuyer, Bool.false_eq_true, ↓reduceIte, buyerPredicateTrace, hstates,
      ok_bind, hnot .conflict (by decide), hnot .stale (by decide),
      hnot .unknown (by decide), hvalues, or_self, hmapM]
    exact ⟨_, rfl, rfl⟩

end PredicateTrace

/-! ## Readings of a gate -/

theorem Reading.conflict_mem_states {r : Reading} : .conflict ∈ r.states ↔ r = .conflict := by
  cases r <;> simp [states, truthOf]

theorem Reading.unknown_mem_states {r : Reading} : .unknown ∈ r.states ↔ r = .unresolved := by
  cases r <;> simp [states, truthOf]

theorem Reading.false_mem_states {r : Reading} :
    .false ∈ r.states ↔ ∃ truths, r = .decided truths ∧ false ∈ truths := by
  cases r with
  | conflict => simp [states]
  | unresolved => simp [states]
  | decided truths => simp [states, truthOf]

/-- The published evidence of a seller rule is disputed or revoked. -/
def RuleConflicts (gate : GateRule) (index : AssessmentIndex) : Prop :=
  gate.isSeller = true ∧ gate.evidenceClaimIds.items ≠ [] ∧
    .conflict ∈ referencedStates gate index

/-- The published evidence of a seller rule is missing, unknown or stale. -/
def RuleUnresolved (gate : GateRule) (index : AssessmentIndex) : Prop :=
  gate.isSeller = true ∧ gate.evidenceClaimIds.items ≠ [] ∧
    ((referencedStates gate index = [] ∨ .unknown ∈ referencedStates gate index) ∨
      .stale ∈ referencedStates gate index)

section Gate

variable (rt) (gate : GateRule) (material : PlanMaterial) (values : Dict String FactValue)
  (index : AssessmentIndex)

/-- Some evidence that the gate needs is in conflict. -/
def GateConflicts : Prop :=
  RuleConflicts gate index ∨
    ∃ p ∈ gate.predicates, Reads rt gate material values index p .conflict

/-- Some evidence or value that the gate needs is not settled. -/
def GateUnresolved : Prop :=
  RuleUnresolved gate index ∨
    ∃ p ∈ gate.predicates, Reads rt gate material values index p .unresolved

/-- Some predicate is decided for every component, and false for one. -/
def GateFails : Prop :=
  ∃ p ∈ gate.predicates, ∃ truths, Reads rt gate material values index p (.decided truths) ∧
    false ∈ truths

end Gate

variable {gate : GateRule} {material : PlanMaterial} {values : Dict String FactValue}
  {index : AssessmentIndex}

theorem sellerEvidenceTrace_conflict :
    .conflict ∈ (sellerEvidenceTrace gate index).states ↔ RuleConflicts gate index := by
  unfold sellerEvidenceTrace RuleConflicts GateTrace.append
  split <;> rename_i hrule
  · simp only [Bool.and_eq_true, Bool.not_eq_true', List.isEmpty_eq_false_iff] at hrule
    simp only [hrule.1, true_and]
    split <;> split <;> split <;> simp_all
  · simp_all

theorem sellerEvidenceTrace_unknown :
    .unknown ∈ (sellerEvidenceTrace gate index).states ↔ RuleUnresolved gate index := by
  unfold sellerEvidenceTrace RuleUnresolved GateTrace.append
  split <;> rename_i hrule
  · simp only [Bool.and_eq_true, Bool.not_eq_true', List.isEmpty_eq_false_iff] at hrule
    simp only [hrule.1, true_and]
    split <;> split <;> split <;> simp_all
  · simp_all

theorem sellerEvidenceTrace_false : .false ∉ (sellerEvidenceTrace gate index).states := by
  unfold sellerEvidenceTrace GateTrace.append
  dsimp only
  split
  · split <;> split <;> split <;> simp
  · simp

theorem sellerEvidenceTrace_reasons :
    (sellerEvidenceTrace gate index).reasons = [] ↔
      ¬ (RuleConflicts gate index ∨ RuleUnresolved gate index) := by
  rw [← sellerEvidenceTrace_conflict, ← sellerEvidenceTrace_unknown]
  unfold sellerEvidenceTrace GateTrace.append
  dsimp only
  split
  · split <;> split <;> split <;> simp
  · simp

theorem sellerEvidenceTrace_blocking :
    ∀ reason ∈ (sellerEvidenceTrace gate index).reasons, reason.status.rankable = false := by
  unfold sellerEvidenceTrace GateTrace.append
  dsimp only
  split
  · split <;> split <;> split <;> simp [CandidateStatus.rankable]
  · simp

theorem foldl_append_states (traces : List GateTrace) (init : GateTrace) :
    (traces.foldl GateTrace.append init).states = init.states ++ traces.flatMap (·.states) := by
  induction traces generalizing init with
  | nil => simp
  | cons t traces ih => simp [ih, GateTrace.append]

theorem foldl_append_reasons (traces : List GateTrace) (init : GateTrace) :
    (traces.foldl GateTrace.append init).reasons = init.reasons ++ traces.flatMap (·.reasons) := by
  induction traces generalizing init with
  | nil => simp
  | cons t traces ih => simp [ih, GateTrace.append]

/-- What the trace of a gate says, in terms of its readings. -/
structure GateTrace.Spec (rt : Runtime) (gate : GateRule) (material : PlanMaterial)
    (values : Dict String FactValue) (index : AssessmentIndex) (trace : GateTrace) : Prop where
  conflict : .conflict ∈ trace.states ↔ GateConflicts rt gate material values index
  unknown : .unknown ∈ trace.states ↔ GateUnresolved rt gate material values index
  false : .false ∈ trace.states ↔ GateFails rt gate material values index
  reasons : trace.reasons = [] ↔
    ¬ (GateConflicts rt gate material values index ∨ GateUnresolved rt gate material values index)
  blocking : ∀ reason ∈ trace.reasons, reason.status.rankable = Bool.false

theorem mem_states_iff {traces : List GateTrace} {state : TruthValue}
    (htraces : gate.predicates.mapM (predicateTrace rt gate material values index) = .ok traces) :
    state ∈ traces.flatMap (·.states) ↔ ∃ p ∈ gate.predicates, ∃ reading,
      Reads rt gate material values index p reading ∧ state ∈ reading.states := by
  simp only [List.mem_flatMap, mem_of_mapM_eq_ok htraces]
  constructor
  · rintro ⟨trace, ⟨p, hp, htrace⟩, hstate⟩
    obtain ⟨reading, hreads, hshows⟩ := predicateTrace_shows htrace
    exact ⟨p, hp, reading, hreads, hshows.states ▸ hstate⟩
  · rintro ⟨p, hp, reading, hreads, hstate⟩
    obtain ⟨trace, htrace, hstates⟩ := hreads.exists_trace
    exact ⟨trace, ⟨p, hp, htrace⟩, hstates.symm ▸ hstate⟩

theorem gateTrace_spec {trace : GateTrace}
    (h : gateTrace rt gate material values index = .ok trace) :
    trace.Spec rt gate material values index := by
  unfold gateTrace at h
  obtain ⟨traces, htraces, htrace⟩ := bind_eq_ok.mp h
  obtain rfl := pure_eq_ok.mp htrace
  have hreasons : traces.flatMap (·.reasons) = [] ↔
      ¬ ((∃ p ∈ gate.predicates, Reads rt gate material values index p .conflict) ∨
        ∃ p ∈ gate.predicates, Reads rt gate material values index p .unresolved) := by
    rw [List.flatMap_eq_nil_iff]
    constructor
    · intro hnil hopen
      obtain ⟨p, hp, reading, hreads, hne⟩ : ∃ p ∈ gate.predicates, ∃ reading,
          Reads rt gate material values index p reading ∧ ∀ truths, reading ≠ .decided truths := by
        rcases hopen with ⟨p, hp, hreads⟩ | ⟨p, hp, hreads⟩
        · exact ⟨p, hp, _, hreads, by simp⟩
        · exact ⟨p, hp, _, hreads, by simp⟩
      obtain ⟨trace, hmem, htrace⟩ := exists_of_mapM_eq_ok htraces hp
      obtain ⟨trace', htrace', hstates⟩ := hreads.exists_trace
      obtain rfl : trace = trace' := Except.ok.inj (htrace.symm.trans htrace')
      obtain ⟨reading', -, hshows⟩ := predicateTrace_shows htrace
      obtain ⟨truths, rfl⟩ := hshows.reasons.mp (hnil trace hmem)
      -- A decided trace has only the states TRUE and FALSE, so the reading is decided too.
      have hsame : reading.states = Reading.states (.decided truths) := hstates.symm.trans hshows.states
      cases reading with
      | decided truths' => exact hne truths' rfl
      | conflict =>
        have hmem : .conflict ∈ Reading.states (.decided truths) := by
          rw [← hsame]
          exact List.mem_singleton_self _
        cases Reading.conflict_mem_states.mp hmem
      | unresolved =>
        have hmem : .unknown ∈ Reading.states (.decided truths) := by
          rw [← hsame]
          exact List.mem_singleton_self _
        cases Reading.unknown_mem_states.mp hmem
    · intro hclosed trace hmem
      obtain ⟨p, hp, htrace⟩ := (mem_of_mapM_eq_ok htraces).mp hmem
      obtain ⟨reading, hreads, hshows⟩ := predicateTrace_shows htrace
      refine hshows.reasons.mpr ?_
      cases reading with
      | decided truths => exact ⟨truths, rfl⟩
      | conflict => exact absurd (Or.inl ⟨p, hp, hreads⟩) hclosed
      | unresolved => exact absurd (Or.inr ⟨p, hp, hreads⟩) hclosed
  refine ⟨?_, ?_, ?_, ?_, ?_⟩
  · rw [foldl_append_states, List.mem_append, sellerEvidenceTrace_conflict, mem_states_iff htraces]
    simp [Reading.conflict_mem_states, GateConflicts]
  · rw [foldl_append_states, List.mem_append, sellerEvidenceTrace_unknown, mem_states_iff htraces]
    simp [Reading.unknown_mem_states, GateUnresolved]
  · rw [foldl_append_states, List.mem_append, mem_states_iff htraces]
    simp only [sellerEvidenceTrace_false, Reading.false_mem_states, false_or, GateFails]
    constructor
    · rintro ⟨p, hp, reading, hreads, truths, rfl, hfalse⟩
      exact ⟨p, hp, truths, hreads, hfalse⟩
    · rintro ⟨p, hp, truths, hreads, hfalse⟩
      exact ⟨p, hp, _, hreads, truths, rfl, hfalse⟩
  · rw [foldl_append_reasons, List.append_eq_nil_iff, sellerEvidenceTrace_reasons, hreasons]
    unfold GateConflicts GateUnresolved
    simp only [not_or]
    exact ⟨fun ⟨⟨a, b⟩, c, d⟩ => ⟨⟨a, c⟩, b, d⟩, fun ⟨⟨a, c⟩, b, d⟩ => ⟨⟨a, b⟩, c, d⟩⟩
  · rw [foldl_append_reasons]
    intro reason hreason
    rcases List.mem_append.mp hreason with hseller | hpredicate
    · exact sellerEvidenceTrace_blocking reason hseller
    · obtain ⟨trace, hmem, hreason⟩ := List.mem_flatMap.mp hpredicate
      obtain ⟨p, -, htrace⟩ := (mem_of_mapM_eq_ok htraces).mp hmem
      obtain ⟨reading, -, hshows⟩ := predicateTrace_shows htrace
      exact hshows.blocking reason hreason

/-! ## Truth and reasons -/

theorem gateTruth_eq_true_iff {mode : GateMode} {states : List TruthValue} :
    gateTruth mode states = .true ↔ .conflict ∉ states ∧
      (mode = .requireMatch → .false ∉ states ∧ .unknown ∉ states) ∧
      (mode = .blockOnMatch → .false ∈ states) := by
  unfold gateTruth
  cases mode <;> split_ifs <;> simp_all

theorem gateTruth_eq_false_iff {mode : GateMode} {states : List TruthValue} :
    gateTruth mode states = .false ↔ .conflict ∉ states ∧
      (mode = .requireMatch → .false ∈ states) ∧
      (mode = .blockOnMatch → .false ∉ states ∧ .unknown ∉ states) := by
  unfold gateTruth
  cases mode <;> split_ifs <;> simp_all

section Result

variable {result : GateResult} (h : evaluateGate rt gate material values index = .ok result)

include h

theorem evaluateGate_gateId : result.gateId = gate.gateId := by
  unfold evaluateGate at h
  obtain ⟨trace, -, h⟩ := bind_eq_ok.mp h
  rw [← pure_eq_ok.mp h]

theorem evaluateGate_trace : ∃ trace : GateTrace, trace.Spec rt gate material values index ∧
    result.truth = gateTruth gate.mode trace.states ∧
    (∀ reason, reason ∈ result.reasons ↔
      reason ∈ trace.reasons ∨ reason ∈ closingReasons gate result.truth) := by
  unfold evaluateGate at h
  obtain ⟨trace, htrace, hresult⟩ := bind_eq_ok.mp h
  obtain rfl := pure_eq_ok.mp hresult
  exact ⟨trace, gateTrace_spec htrace, rfl, fun reason => by simp⟩

theorem evaluateGate_true_iff :
    result.truth = .true ↔ ¬ GateConflicts rt gate material values index ∧
      (gate.mode = .requireMatch → ¬ GateFails rt gate material values index ∧
        ¬ GateUnresolved rt gate material values index) ∧
      (gate.mode = .blockOnMatch → GateFails rt gate material values index) := by
  obtain ⟨trace, hspec, htruth, -⟩ := evaluateGate_trace h
  rw [htruth, ← hspec.conflict, ← hspec.unknown, ← hspec.false]
  exact gateTruth_eq_true_iff

theorem evaluateGate_false_iff :
    result.truth = .false ↔ ¬ GateConflicts rt gate material values index ∧
      (gate.mode = .requireMatch → GateFails rt gate material values index) ∧
      (gate.mode = .blockOnMatch → ¬ GateFails rt gate material values index ∧
        ¬ GateUnresolved rt gate material values index) := by
  obtain ⟨trace, hspec, htruth, -⟩ := evaluateGate_trace h
  rw [htruth, ← hspec.conflict, ← hspec.unknown, ← hspec.false]
  exact gateTruth_eq_false_iff

theorem evaluateGate_reasons_eq_nil :
    result.reasons = [] ↔
      (¬ GateConflicts rt gate material values index ∧
        ¬ GateUnresolved rt gate material values index) ∧ result.truth ≠ .false := by
  obtain ⟨trace, hspec, -, hreasons⟩ := evaluateGate_trace h
  rw [← not_or, ← hspec.reasons]
  simp only [List.eq_nil_iff_forall_not_mem, hreasons, not_or, forall_and]
  refine and_congr_right (fun _ => ?_)
  unfold closingReasons
  split
  · cases gate.mode <;> simp_all
  · simp_all

theorem evaluateGate_blocking :
    ∀ reason ∈ result.reasons, reason.status.rankable = false ∨
      (reason.status = gate.blockedStatus ∧ result.truth = .false) := by
  obtain ⟨trace, hspec, -, hreasons⟩ := evaluateGate_trace h
  intro reason hreason
  rcases (hreasons reason).mp hreason with htrace | hclosing
  · exact Or.inl (hspec.blocking reason htrace)
  · unfold closingReasons at hclosing
    split at hclosing
    · rename_i hfalse
      refine Or.inr ⟨?_, hfalse⟩
      cases hmode : gate.mode <;> simp_all
    · cases hclosing

theorem exists_reads_of_evaluateGate {predicate : Predicate} (hp : predicate ∈ gate.predicates) :
    ∃ reading, Reads rt gate material values index predicate reading := by
  unfold evaluateGate gateTrace at h
  obtain ⟨trace, htrace, -⟩ := bind_eq_ok.mp h
  obtain ⟨traces, htraces, -⟩ := bind_eq_ok.mp htrace
  obtain ⟨shown, -, hshown⟩ := exists_of_mapM_eq_ok htraces hp
  obtain ⟨reading, hreads, -⟩ := predicateTrace_shows hshown
  exact ⟨reading, hreads⟩

end Result

/-- A blocking gate with one predicate decided in its favour and another one open:
    the truth is settled, but the open predicate has left a reason. -/
def ClearedButOpen (rt : Runtime) (gate : GateRule) (material : PlanMaterial)
    (values : Dict String FactValue) (index : AssessmentIndex) : Prop :=
  gate.mode = .blockOnMatch ∧ ¬ GateConflicts rt gate material values index ∧
    GateFails rt gate material values index ∧ GateUnresolved rt gate material values index

theorem truth_iff_reasons_iff {result : GateResult}
    (h : evaluateGate rt gate material values index = .ok result) :
    (result.truth = .true ↔ result.reasons = []) ↔
      ¬ ClearedButOpen rt gate material values index := by
  rw [evaluateGate_reasons_eq_nil h, ne_eq, evaluateGate_false_iff h, evaluateGate_true_iff h]
  unfold ClearedButOpen
  cases gate.mode <;> simp <;> tauto

/-! ## The status of a plan -/

theorem CandidateStatus.eq_eligible_iff {status : CandidateStatus} :
    status = .eligible ↔ 10 ≤ status.rank := by
  cases status <;> simp [CandidateStatus.rank]

variable {gates : List GateResult}

theorem le_rank_primaryStatus_iff {n : Nat} (hn : n ≤ 10) :
    n ≤ (primaryStatus gates).1.rank ↔
      ∀ result ∈ gates, ∀ reason ∈ result.reasons, n ≤ reason.status.rank := by
  have hflat : (∀ result ∈ gates, ∀ reason ∈ result.reasons, n ≤ reason.status.rank) ↔
      ∀ reason ∈ gates.flatMap (·.reasons), n ≤ reason.status.rank := by
    simp only [List.mem_flatMap, forall_exists_index, and_imp]
    exact ⟨fun h reason result hr hm => h result hr reason hm,
      fun h result hr reason hm => h reason result hr hm⟩
  rw [hflat]
  unfold primaryStatus
  cases gates.flatMap (·.reasons) with
  | nil => simp [CandidateStatus.rank, hn]
  | cons reason reasons =>
    obtain ⟨hmem, hleast⟩ :=
      firstMin_spec (fun r : GateReason => toLex (r.status.rank, r.reasonCode)) reason reasons
    constructor
    · intro hle other hother
      have hlex := hleast other hother
      rcases Prod.Lex.toLex_le_toLex.mp hlex with hlt | ⟨heq, -⟩
      · exact hle.trans hlt.le
      · exact hle.trans heq.le
    · intro hall
      exact hall _ hmem

theorem primaryStatus_eligible_iff :
    (primaryStatus gates).1 = .eligible ↔
      ∀ result ∈ gates, ∀ reason ∈ result.reasons, reason.status = .eligible := by
  simp only [CandidateStatus.eq_eligible_iff, le_rank_primaryStatus_iff le_rfl]

theorem primaryStatus_rankable_iff :
    (primaryStatus gates).1.rankable = true ↔
      ∀ result ∈ gates, ∀ reason ∈ result.reasons, reason.status.rankable = true := by
  simp only [CandidateStatus.rankable_iff_rank,
    le_rank_primaryStatus_iff (by decide : 9 ≤ 10)]

/-- The results of a plan: the built-in gates and one result for every applicable rule. -/
theorem mem_evaluateGates {input : DecisionGraphInput} {assessments : List EvidenceAssessment}
    (h : evaluateGates rt input material assessments = .ok gates) {result : GateResult} :
    result ∈ gates ↔ result = availabilityGate material ∨ result ∈ dependencyGates material ∨
      authorityGate material = some result ∨
      ∃ gate ∈ applicableGates input material, evaluateGate rt gate material
        (buyerValueMap input) (assessmentIndex assessments) = .ok result := by
  unfold evaluateGates at h
  obtain ⟨ruled, hruled, hgates⟩ := bind_eq_ok.mp h
  obtain rfl := pure_eq_ok.mp hgates
  simp [mem_of_mapM_eq_ok hruled]

theorem exists_evaluateGate_of_evaluateGates {input : DecisionGraphInput}
    {assessments : List EvidenceAssessment}
    (h : evaluateGates rt input material assessments = .ok gates)
    (hgate : gate ∈ applicableGates input material) :
    ∃ result, evaluateGate rt gate material (buyerValueMap input) (assessmentIndex assessments) =
      .ok result := by
  unfold evaluateGates at h
  obtain ⟨ruled, hruled, -⟩ := bind_eq_ok.mp h
  obtain ⟨result, -, hresult⟩ := exists_of_mapM_eq_ok hruled hgate
  exact ⟨result, hresult⟩

theorem availabilityGate_true_iff :
    (availabilityGate material).truth = .true ↔ (availabilityGate material).reasons = [] := by
  unfold availabilityGate
  cases material.available <;> simp

theorem dependencyGates_false {result : GateResult} (h : result ∈ dependencyGates material) :
    result.truth = .false ∧ ∃ reason ∈ result.reasons, reason.status = .siraIneligible := by
  obtain ⟨⟨issue, index⟩, -, rfl⟩ := List.mem_map.mp h
  exact ⟨rfl, _, List.mem_singleton_self _, rfl⟩

theorem authorityGate_false {result : GateResult} (h : authorityGate material = some result) :
    result.truth = .false ∧ ∃ reason ∈ result.reasons, reason.status = .advisoryOnly := by
  unfold authorityGate at h
  split at h
  · cases h
  · cases h
  · cases h
    exact ⟨rfl, _, List.mem_singleton_self _, rfl⟩

namespace Sample

def hosted : CurrentActionRecord where
  actionId := "a3"
  action := .renew
  instanceId := "gamma"
  facts := [cloudFact]
  cost := cost

def residency : Predicate where
  field := "residency"
  operator := "eq"
  value := .str "us"

/-- Blocks what is hosted on premises in one country. -/
def noOnPremisesInUs : GateRule where
  gateId := "no_onprem_us"
  predicates := [onPremises, residency]
  mode := .blockOnMatch
  blockedStatus := .siraIneligible
  reasonCode := "ON_PREMISES_US"
  sourceFactIds := .of []
  appliesToActions := []

/-- An action in the cloud, with no evidence of its residency. -/
def hostedInput : DecisionGraphInput :=
  { input with
    currentActions := [hosted]
    evidencePolicies := [policy, hostingPolicy]
    gates := [noOnPremisesInUs]
    currentActions_nodup := by decide +kernel
    evidencePolicies_nodup := bundleInput.evidencePolicies_nodup
    gates_nodup := by decide +kernel }

end Sample

end DecisionEngine
