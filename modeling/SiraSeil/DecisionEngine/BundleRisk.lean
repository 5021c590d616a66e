-- SUMMARY: When the risk bounds of a bundle are at least those of each of its components alone.
import SiraSeil.DecisionEngine.EvidenceMixing
import SiraSeil.Domain.Digests
import SiraSeil.DecisionEngine.Selection

/-!
# The risk of a bundle

Risk rules read the facts that preferences aggregate. A component whose facts an aggregation drops
or combines may give a rule a level that the bundle does not give it.
-/

namespace DecisionEngine

open Domain Sorting Raising

variable {rt : Runtime} {input : DecisionGraphInput} {index : AssessmentIndex}

/-! ## One rule -/

/-- What a rule says about facts: the bounds that it gives, or none where its predicate fails. A
    rule that lacks bounds for a missing input says nothing at all. -/
inductive RuleReads (rt : Runtime) (facts : List ProductFact) (index : AssessmentIndex)
    (rule : RiskRule) : Option RiskBounds → Prop
  | always {bounds : RiskBounds} (hpredicate : rule.predicate = none)
      (hbounds : RiskBounds.new rule.lower rule.base rule.upper = .ok bounds) :
      RuleReads rt facts index rule (some bounds)
  | matched {predicate : Predicate} {state : FieldState} {bounds : RiskBounds}
      (hpredicate : rule.predicate = some predicate)
      (hstate : fieldState rt facts predicate.field index = .ok state)
      (husable : state.state = .acceptable ∧ state.values ≠ [])
      (hmatch : state.values.allM (fun value => predicateMatches rt value predicate) = .ok true)
      (hbounds : RiskBounds.new rule.lower rule.base rule.upper = .ok bounds) :
      RuleReads rt facts index rule (some bounds)
  | unmatched {predicate : Predicate} {state : FieldState}
      (hpredicate : rule.predicate = some predicate)
      (hstate : fieldState rt facts predicate.field index = .ok state)
      (husable : state.state = .acceptable ∧ state.values ≠ [])
      (hfails : state.values.allM (fun value => predicateMatches rt value predicate) = .ok false) :
      RuleReads rt facts index rule none
  | missing {predicate : Predicate} {state : FieldState} {lower base upper : StackRisk}
      {bounds : RiskBounds} (hpredicate : rule.predicate = some predicate)
      (hstate : fieldState rt facts predicate.field index = .ok state)
      (hunusable : ¬ (state.state = .acceptable ∧ state.values ≠ []))
      (hlower : rule.missingLower = some lower) (hbase : rule.missingBase = some base)
      (hupper : rule.missingUpper = some upper)
      (hbounds : RiskBounds.new lower base upper = .ok bounds) :
      RuleReads rt facts index rule (some bounds)

theorem values_isEmpty {state : FieldState} :
    (if state.state = .acceptable then state.values else []).isEmpty = true ↔
      ¬ (state.state = .acceptable ∧ state.values ≠ []) := by
  split
  next h => simp [h, List.isEmpty_iff]
  next h => simp [h]

variable {material : PlanMaterial} {levels : List RiskBounds} {bounds : RiskBounds}
  {assessments : List EvidenceAssessment}

theorem reads_of_riskTrace {rule : RiskRule} {trace : RiskTrace}
    (h : riskTrace rt material index rule = .ok trace) (hreasons : trace.reasons = []) :
    ∃ level, RuleReads rt material.facts index rule level ∧ trace.bounds = level.toList := by
  unfold riskTrace at h
  split at h
  next hpredicate =>
    obtain ⟨bounds, hbounds, h⟩ := bind_eq_ok.mp h
    cases h
    exact ⟨some bounds, .always hpredicate hbounds, rfl⟩
  next predicate hpredicate =>
    obtain ⟨state, hstate, h⟩ := bind_eq_ok.mp h
    by_cases husable : state.state = .acceptable ∧ state.values ≠ []
    · rw [if_neg (mt values_isEmpty.mp (not_not_intro husable)), if_pos husable.1] at h
      obtain ⟨matched, hmatched, h⟩ := bind_eq_ok.mp h
      cases matched with
      | true =>
        obtain ⟨bounds, hbounds, h⟩ := bind_eq_ok.mp h
        cases h
        exact ⟨some bounds, .matched hpredicate hstate husable hmatched hbounds, rfl⟩
      | false =>
        cases h
        exact ⟨none, .unmatched hpredicate hstate husable hmatched, rfl⟩
    · rw [if_pos (values_isEmpty.mpr husable)] at h
      unfold missingRiskTrace at h
      split at h
      next lower base upper hlower hbase hupper =>
        obtain ⟨bounds, hbounds, h⟩ := bind_eq_ok.mp h
        cases h
        exact ⟨some bounds, .missing hpredicate hstate husable hlower hbase hupper hbounds, rfl⟩
      · cases h
        cases hreasons

theorem RuleReads.riskTrace {material : PlanMaterial} {rule : RiskRule}
    {level : Option RiskBounds} (h : RuleReads rt material.facts index rule level) :
    ∃ trace, riskTrace rt material index rule = .ok trace ∧ trace.reasons = [] ∧
      trace.bounds = level.toList := by
  unfold DecisionEngine.riskTrace
  rcases h with ⟨hpredicate, hbounds⟩ | ⟨hpredicate, hstate, husable, hmatch, hbounds⟩ |
    ⟨hpredicate, hstate, husable, hfails⟩ |
    ⟨hpredicate, hstate, hunusable, hlower, hbase, hupper, hbounds⟩
  · rw [hpredicate]
    dsimp only
    unfold matchedRiskTrace
    rw [hbounds]
    exact ⟨_, rfl, rfl, rfl⟩
  · have hfull := mt values_isEmpty.mp (not_not_intro husable)
    rw [hpredicate]
    dsimp only
    rw [hstate, ok_bind, if_neg hfull, if_pos husable.1, hmatch, ok_bind]
    unfold matchedRiskTrace
    rw [hbounds]
    exact ⟨_, rfl, rfl, rfl⟩
  · have hfull := mt values_isEmpty.mp (not_not_intro husable)
    rw [hpredicate]
    dsimp only
    rw [hstate, ok_bind, if_neg hfull, if_pos husable.1, hfails, ok_bind]
    exact ⟨_, rfl, rfl, rfl⟩
  · rw [hpredicate]
    dsimp only
    rw [hstate, ok_bind, if_pos (values_isEmpty.mpr hunusable)]
    unfold missingRiskTrace
    rw [hlower, hbase, hupper]
    dsimp only
    rw [hbounds]
    exact ⟨_, rfl, rfl, rfl⟩

/-! ## All rules -/

theorem foldl_append (traces : List RiskTrace) (acc : RiskTrace) :
    traces.foldl RiskTrace.append acc =
      ⟨acc.bounds ++ traces.flatMap (·.bounds), acc.triggered ++ traces.flatMap (·.triggered),
        acc.reasons ++ traces.flatMap (·.reasons)⟩ := by
  induction traces generalizing acc with
  | nil => simp
  | cons trace traces ih => simp [ih, RiskTrace.append]

theorem rank_le (risk : StackRisk) : risk.rank ≤ 3 := by cases risk <;> decide

theorem rank_of_byRank {n : Nat} (h : n ≤ 3) : (StackRisk.byRank n).rank = n := by
  interval_cases n <;> rfl

theorem maxRank_concat (ranks : List Nat) (rank : Nat) :
    maxRank (ranks ++ [rank]) = max (maxRank ranks) rank := by
  unfold maxRank
  rw [List.foldl_append]
  rfl

theorem maxRank_spec (ranks : List Nat) :
    (∀ rank ∈ ranks, rank ≤ maxRank ranks) ∧ (maxRank ranks = 0 ∨ maxRank ranks ∈ ranks) := by
  induction ranks using List.reverseRecOn with
  | nil => exact ⟨nofun, .inl rfl⟩
  | append_singleton ranks rank ih =>
    rw [maxRank_concat]
    refine ⟨fun r hr => ?_, ?_⟩
    · rcases List.mem_append.mp hr with hr | hr
      · exact (ih.1 r hr).trans (le_max_left _ _)
      · rw [List.mem_singleton.mp hr]
        exact le_max_right _ _
    · rcases max_choice (maxRank ranks) rank with hmax | hmax
      · rw [hmax]
        exact ih.2.imp id (List.mem_append_left _)
      · rw [hmax]
        exact .inr (List.mem_append_right _ (List.mem_singleton_self _))

/-- The bounds of a risk, one after another -/
inductive RiskSide
  | lower | base | upper

def RiskBounds.side (bounds : RiskBounds) : RiskSide → StackRisk
  | .lower => bounds.lower
  | .base => bounds.base
  | .upper => bounds.upper

theorem rank_maxRank_le (levels : List RiskBounds) (side : RiskBounds → StackRisk) :
    maxRank (levels.map (fun level => (side level).rank)) ≤ 3 := by
  rcases (maxRank_spec (levels.map (fun level => (side level).rank))).2 with hzero | hmem
  · omega
  · obtain ⟨level, -, hlevel⟩ := List.mem_map.mp hmem
    rw [← hlevel]
    exact rank_le _

theorem aggregateRiskBounds_side (h : aggregateRiskBounds levels = .ok bounds) (side : RiskSide) :
    (bounds.side side).rank = maxRank (levels.map (fun level => (level.side side).rank)) := by
  unfold aggregateRiskBounds at h
  split at h
  · cases h
  · unfold RiskBounds.new at h
    split at h
    · cases h
      cases side with
      | lower => exact rank_of_byRank (rank_maxRank_le levels (·.lower))
      | base => exact rank_of_byRank (rank_maxRank_le levels (·.base))
      | upper => exact rank_of_byRank (rank_maxRank_le levels (·.upper))
    · cases h

/-- The rule applies to the action. -/
def Applies (input : DecisionGraphInput) (action : SolutionAction) (rule : RiskRule) : Prop :=
  rule ∈ input.riskRules ∧ action ∈ rule.actions

/-- Every rule for the action says something about the facts. -/
def Rated (rt : Runtime) (input : DecisionGraphInput) (action : SolutionAction)
    (facts : List ProductFact) (index : AssessmentIndex) : Prop :=
  ∀ rule, Applies input action rule → ∃ level, RuleReads rt facts index rule level

/-- Where bounds are available, each is the highest of those that the rules give, or LOW. -/
theorem riskBounds_maxRank {reasons ids : List String}
    (h : riskBounds rt input material assessments = .ok (some bounds, reasons, ids)) :
    ∃ traces, ((sortedBy (·.ruleId) input.riskRules).filter
        (fun rule => rule.actions.contains material.action)).mapM
          (riskTrace rt material (assessmentIndex assessments)) = .ok traces ∧
      (∀ trace ∈ traces, trace.reasons = []) ∧
      ∀ side, (bounds.side side).rank =
        maxRank ((traces.flatMap (·.bounds)).map (fun level => (level.side side).rank)) := by
  unfold riskBounds at h
  obtain ⟨traces, htraces, h⟩ := bind_eq_ok.mp h
  rw [foldl_append] at h
  dsimp only at h
  split at h
  · cases h
  next hreasons =>
    rw [Bool.not_eq_true', Bool.not_eq_false, List.nil_append, List.isEmpty_iff,
      List.flatMap_eq_nil_iff] at hreasons
    refine ⟨traces, htraces, hreasons, ?_⟩
    split at h
    next hempty =>
      rw [List.nil_append, List.isEmpty_iff] at hempty
      split at h
      · cases h
      · obtain ⟨low, hlow, h⟩ := bind_eq_ok.mp h
        obtain ⟨highest, hhighest, h⟩ := bind_eq_ok.mp h
        cases h
        intro side
        rw [aggregateRiskBounds_side hhighest side, hempty]
        cases hlow
        cases side <;> rfl
    next =>
      obtain ⟨highest, hhighest, h⟩ := bind_eq_ok.mp h
      cases h
      exact aggregateRiskBounds_side hhighest

theorem riskBounds_some {reasons ids : List String}
    (h : riskBounds rt input material assessments = .ok (some bounds, reasons, ids)) :
    Rated rt input material.action material.facts (assessmentIndex assessments) ∧
    (∀ rule level, Applies input material.action rule →
      RuleReads rt material.facts (assessmentIndex assessments) rule (some level) →
        ∀ side, (level.side side).rank ≤ (bounds.side side).rank) ∧
    ∀ side, bounds.side side = .low ∨ ∃ rule level, Applies input material.action rule ∧
      RuleReads rt material.facts (assessmentIndex assessments) rule (some level) ∧
        level.side side = bounds.side side := by
  obtain ⟨traces, htraces, hreasons, hsides⟩ := riskBounds_maxRank h
  have hrule : ∀ rule, rule ∈ (sortedBy (·.ruleId) input.riskRules).filter
      (fun rule => rule.actions.contains material.action) ↔ Applies input material.action rule := by
    intro rule
    rw [List.mem_filter, mem_sortedBy, List.contains_iff_mem]
    rfl
  have htrace : ∀ {trace}, trace ∈ traces ↔ ∃ rule, Applies input material.action rule ∧
      riskTrace rt material (assessmentIndex assessments) rule = .ok trace := by
    intro trace
    rw [mem_of_mapM_eq_ok htraces]
    simp only [hrule]
  refine ⟨fun rule happlies => ?_, fun rule level happlies hreads side => ?_, fun side => ?_⟩
  · obtain ⟨trace, hmem, hrun⟩ := exists_of_mapM_eq_ok htraces ((hrule rule).mpr happlies)
    obtain ⟨level, hreads, -⟩ := reads_of_riskTrace hrun (hreasons trace hmem)
    exact ⟨level, hreads⟩
  · obtain ⟨trace, hrun, -, hbounds⟩ := hreads.riskTrace
    rw [hsides side]
    refine (maxRank_spec _).1 _ (List.mem_map.mpr ⟨level, List.mem_flatMap.mpr
      ⟨trace, htrace.mpr ⟨rule, happlies, hrun⟩, ?_⟩, rfl⟩)
    rw [hbounds]
    exact List.mem_singleton_self _
  · have hspec := (maxRank_spec ((traces.flatMap (·.bounds)).map
      (fun level => (level.side side).rank))).2
    rw [← hsides side] at hspec
    have hsame : ∀ {r r' : StackRisk}, r.rank = r'.rank → r = r' := by
      intro r r' heq
      rw [← StackRisk.rank_byRank r, heq, StackRisk.rank_byRank]
    refine hspec.imp (fun hzero => @hsame _ .low hzero) fun hmem => ?_
    obtain ⟨level, hlevel, hrank⟩ := List.mem_map.mp hmem
    obtain ⟨trace, htraceMem, hlevel⟩ := List.mem_flatMap.mp hlevel
    obtain ⟨rule, happlies, hrun⟩ := htrace.mp htraceMem
    obtain ⟨level', hreads, hbounds⟩ := reads_of_riskTrace hrun (hreasons trace htraceMem)
    rw [hbounds] at hlevel
    cases level' with
    | none => cases hlevel
    | some own =>
      cases List.mem_singleton.mp hlevel
      exact ⟨rule, level, happlies, hreads, hsame hrank⟩

theorem maxRank_mono (side side' : RiskSide)
    (h : ∀ level ∈ levels, (level.side side).rank ≤ (level.side side').rank) :
    maxRank (levels.map (fun level => (level.side side).rank)) ≤
      maxRank (levels.map (fun level => (level.side side').rank)) := by
  rcases (maxRank_spec (levels.map (fun level => (level.side side).rank))).2 with hzero | hmem
  · omega
  · obtain ⟨level, hlevel, hrank⟩ := List.mem_map.mp hmem
    rw [← hrank]
    exact (h level hlevel).trans ((maxRank_spec _).1 _ (List.mem_map.mpr ⟨level, hlevel, rfl⟩))

theorem exists_aggregateRiskBounds (h : levels ≠ []) :
    ∃ bounds, aggregateRiskBounds levels = .ok bounds := by
  have hrank := fun side => rank_of_byRank (rank_maxRank_le levels (·.side side))
  have hfirst := maxRank_mono .lower .base fun level (_ : level ∈ levels) => level.ordered.1
  have hsecond := maxRank_mono .base .upper fun level (_ : level ∈ levels) => level.ordered.2
  unfold aggregateRiskBounds
  rw [if_neg (by rwa [List.isEmpty_iff])]
  unfold RiskBounds.new
  exact ⟨_, dif_pos ⟨(hrank .lower).trans_le (hfirst.trans_eq (hrank .base).symm),
    (hrank .base).trans_le (hsecond.trans_eq (hrank .upper).symm)⟩⟩

theorem exists_riskBounds
    (hrated : Rated rt input material.action material.facts (assessmentIndex assessments))
    {rule : RiskRule} {level : RiskBounds} (happlies : Applies input material.action rule)
    (hreads : RuleReads rt material.facts (assessmentIndex assessments) rule (some level)) :
    ∃ bounds ids, riskBounds rt input material assessments = .ok (some bounds, [], ids) := by
  have hrule : ∀ rule ∈ (sortedBy (·.ruleId) input.riskRules).filter
      (fun rule => rule.actions.contains material.action), Applies input material.action rule := by
    intro rule hmem
    rw [List.mem_filter, mem_sortedBy, List.contains_iff_mem] at hmem
    exact hmem
  have hrun : ∀ rule ∈ (sortedBy (·.ruleId) input.riskRules).filter
      (fun rule => rule.actions.contains material.action), ∃ trace,
        riskTrace rt material (assessmentIndex assessments) rule = .ok trace := by
    intro rule hmem
    obtain ⟨level, hlevel⟩ := hrated rule (hrule rule hmem)
    obtain ⟨trace, htrace, -⟩ := hlevel.riskTrace
    exact ⟨trace, htrace⟩
  obtain ⟨traces, htraces⟩ := exists_mapM_eq_ok hrun
  have hreasons : traces.flatMap (·.reasons) = [] := by
    refine List.flatMap_eq_nil_iff.mpr fun trace htrace => ?_
    obtain ⟨rule, hmem, htraced⟩ := (mem_of_mapM_eq_ok htraces).mp htrace
    obtain ⟨level, hlevel⟩ := hrated rule (hrule rule hmem)
    obtain ⟨trace', htrace', hnone, -⟩ := hlevel.riskTrace
    rw [htraced] at htrace'
    cases htrace'
    exact hnone
  have hbounds : traces.flatMap (·.bounds) ≠ [] := by
    obtain ⟨trace, htrace, -, hlevel⟩ := hreads.riskTrace
    have hmem : rule ∈ (sortedBy (·.ruleId) input.riskRules).filter
        (fun rule => rule.actions.contains material.action) := by
      rw [List.mem_filter, mem_sortedBy, List.contains_iff_mem]
      exact happlies
    have hin : trace ∈ traces := (mem_of_mapM_eq_ok htraces).mpr ⟨rule, hmem, htrace⟩
    refine List.ne_nil_of_mem (List.mem_flatMap.mpr ⟨trace, hin, ?_⟩ : level ∈ _)
    rw [hlevel]
    exact List.mem_singleton_self _
  obtain ⟨highest, hhighest⟩ := exists_aggregateRiskBounds hbounds
  unfold riskBounds
  dsimp only
  rw [htraces, ok_bind, foldl_append]
  simp only [List.nil_append]
  rw [hreasons, if_neg (by simp), if_neg (by rwa [List.isEmpty_iff]), hhighest]
  exact ⟨highest, _, rfl⟩

/-! ## Bundles -/

/-- The plan of a component by itself, without the products that it requires -/
def Alone (rt : Runtime) (input : DecisionGraphInput) (record : RawCandidateRecord)
    (own : PlanMaterial) : Prop :=
  packMaterial rt input (offerIndex rt input) [record] record = .ok own

theorem action_of_packMaterial {representatives : List RawCandidateRecord}
    {root : RawCandidateRecord}
    (h : packMaterial rt input (offerIndex rt input) representatives root = .ok material) :
    material.action = .replace := by
  unfold packMaterial at h
  simp only [bind_eq_ok, pure_eq_ok] at h
  obtain ⟨_, -, _, -, _, -, _, -, rfl⟩ := h
  rfl

/-- A closed bundle without issues whose bounds are available -/
structure RatedBundle (rt : Runtime) (input : DecisionGraphInput)
    (representatives : List RawCandidateRecord) (root : RawCandidateRecord)
    (material : PlanMaterial) (assessments : List EvidenceAssessment) (bundle : RiskBounds) :
    Prop where
  packs : packRepresentatives rt input = .ok representatives
  root_mem : root ∈ representatives
  packed : packMaterial rt input (offerIndex rt input) representatives root = .ok material
  issues : material.dependencyIssues = []
  recalled : ∃ recallResult, recallAndDeduplicate rt input = .ok recallResult ∧
    assessEvidence rt input recallResult = .ok assessments
  rated : ∃ reasons ids, riskBounds rt input material assessments = .ok (some bundle, reasons, ids)

/-- Each bound of the bundle is at least the one of every component by itself. -/
def Dominates (rt : Runtime) (input : DecisionGraphInput) (records : List RawCandidateRecord)
    (assessments : List EvidenceAssessment) (bundle : RiskBounds) : Prop :=
  ∀ record ∈ records, ∀ own, Alone rt input record own → ∀ bounds reasons ids,
    riskBounds rt input own assessments = .ok (some bounds, reasons, ids) →
      ∀ side, (bounds.side side).rank ≤ (bundle.side side).rank

/-- A level of a component is not above LOW, or a rule gives the bundle one as high. -/
def Covered (rt : Runtime) (input : DecisionGraphInput) (facts : List ProductFact)
    (index : AssessmentIndex) (risk : StackRisk) (side : RiskSide) : Prop :=
  risk = .low ∨ ∃ rule level, Applies input .replace rule ∧
    RuleReads rt facts index rule (some level) ∧ risk.rank ≤ (level.side side).rank

namespace Sample

/-- What is hosted in the cloud is a high risk. -/
def cloudRisk : RiskRule where
  ruleId := "cloud"
  actions := [.replace]
  predicate := some inCloud
  lower := .high
  base := .high
  upper := .high

/-- A plan is hosted as its product is. -/
def hostedAs : PreferenceCriterion where
  criterionId := "hosted_as"
  field := "hosting"
  weight := 1
  coverageWeight := 1
  normalization := .booleanEquals
  expected := .bool true
  sourceFactIds := .of []
  appliesToActions := []
  allowedSatisfactions := .of [0, 1]
  aggregation := .primaryComponent
  points_sorted := uptime.points_sorted

def riskInput : DecisionGraphInput :=
  { bundleInput with
    gates := []
    preferences := [hostedAs]
    outcomeValues := []
    riskRules := [cloudRisk]
    riskRuleSetComplete := true
    gates_nodup := Sample.input.gates_nodup
    preferences_nodup := by decide +kernel
    riskRules_nodup := by decide +kernel }

end Sample

/-- The run of a bundle without issues that is rated below one of its components. -/
def understatedRun (rt : Runtime) (input : DecisionGraphInput) : Bool :=
  (recallAndDeduplicate rt input).toOption.any (fun recallResult =>
    (assessEvidence rt input recallResult).toOption.any (fun assessments =>
      (packRepresentatives rt input).toOption.any (fun representatives =>
        representatives.any (fun root =>
          (packMaterial rt input (offerIndex rt input) representatives root).toOption.any
            (fun material => decide (material.dependencyIssues = []) &&
              (riskBounds rt input material assessments).toOption.any (fun bundle =>
                bundle.1.any (fun bundle =>
                  (closure representatives root).1.any (fun record =>
                    (packMaterial rt input (offerIndex rt input) [record] record).toOption.any
                      (fun own => (riskBounds rt input own assessments).toOption.any (fun bounds =>
                        bounds.1.any (fun bounds =>
                          decide (bundle.upper.rank < bounds.upper.rank))))))))))))

theorem exists_understated (h : understatedRun rt input = true) :
    ∃ representatives root material assessments bundle,
      RatedBundle rt input representatives root material assessments bundle ∧
      ∃ record ∈ (closure representatives root).1, ∃ own, Alone rt input record own ∧
        ∃ bounds reasons ids, riskBounds rt input own assessments =
            .ok (some bounds, reasons, ids) ∧
          bundle.upper.rank < bounds.upper.rank := by
  obtain ⟨recallResult, hrecall, h⟩ := exists_of_toOption_any h
  obtain ⟨assessments, hassessments, h⟩ := exists_of_toOption_any h
  obtain ⟨representatives, hpacks, h⟩ := exists_of_toOption_any h
  obtain ⟨root, hroot, h⟩ := List.any_eq_true.mp h
  obtain ⟨material, hmaterial, h⟩ := exists_of_toOption_any h
  obtain ⟨hissues, h⟩ := Bool.and_eq_true_iff.mp h
  obtain ⟨⟨bundle, reasons, ids⟩, hbundle, h⟩ := exists_of_toOption_any h
  obtain ⟨bundle, rfl, h⟩ := Option.any_eq_true _ _ |>.mp h
  obtain ⟨record, hrecord, h⟩ := List.any_eq_true.mp h
  obtain ⟨own, hown, h⟩ := exists_of_toOption_any h
  obtain ⟨⟨bounds, reasons', ids'⟩, hbounds, h⟩ := exists_of_toOption_any h
  obtain ⟨bounds, rfl, h⟩ := Option.any_eq_true _ _ |>.mp h
  exact ⟨representatives, root, material, assessments, bundle,
    ⟨hpacks, hroot, hmaterial, of_decide_eq_true hissues,
      ⟨recallResult, hrecall, hassessments⟩, reasons,
      ids, hbundle⟩,
    record, hrecord, own, hown, bounds, reasons', ids', hbounds, of_decide_eq_true h⟩

theorem not_dominates {records : List RawCandidateRecord} {assessments : List EvidenceAssessment}
    {bundle : RiskBounds} (h : ∃ record ∈ records, ∃ own, Alone rt input record own ∧
      ∃ bounds reasons ids, riskBounds rt input own assessments = .ok (some bounds, reasons, ids) ∧
        bundle.upper.rank < bounds.upper.rank) :
    ¬ Dominates rt input records assessments bundle := by
  obtain ⟨record, hrecord, own, hown, bounds, reasons, ids, hbounds, hlt⟩ := h
  exact fun hdominates =>
    absurd (hdominates record hrecord own hown bounds reasons ids hbounds .upper) (Nat.not_le.mpr hlt)

end DecisionEngine
