-- SUMMARY: The two envelope keys of a plan are its extreme realized keys, so the rank-stability verdict speaks about every realization.
import SiraSeil.DecisionEngine.Bounds
import SiraSeil.Library.Envelope
import Mathlib.Algebra.Order.BigOperators.Group.List
import Mathlib.Tactic.NormNum

/-!
# Rank stability

A realization of a plan picks one value inside each of its five intervals. The
conservative envelope key is the greatest key over all realizations of a plan
and the optimistic envelope key the least one, although the key mixes ascending
and descending dimensions. The verdict of `assessRankStability` follows from
these two facts.
-/

namespace DecisionEngine

open Domain Sorting Raising

/-! ## Realizations -/

structure Realization where
  preference : ℚ
  riskRank : ℕ
  cost : ℚ
  coverage : ℚ
  evidenceAge : ℚ

/-- Every realized value lies inside its interval. -/
structure Realization.Within (r : Realization) (bounds : OrderingBounds) : Prop where
  preference : r.preference ∈ Set.Icc bounds.preference.conservative bounds.preference.optimistic
  riskRank : r.riskRank ∈ Set.Icc bounds.stackRisk.lower.rank bounds.stackRisk.upper.rank
  cost : r.cost ∈ Set.Icc bounds.totalCost.low.amount bounds.totalCost.high.amount
  coverage : r.coverage ∈ Set.Icc bounds.decisionMaterialCoverage.conservative
    bounds.decisionMaterialCoverage.optimistic
  evidenceAge : r.evidenceAge ∈ Set.Icc bounds.maximumEvidenceAgeRatio.lower
    bounds.maximumEvidenceAgeRatio.upper

/-- The key a plan has once its values are known. -/
def realizedKey (plan : BoundedPlan) (r : Realization) : OrderingKey :=
  orderingKey plan r.preference r.riskRank r.cost r.coverage r.evidenceAge

/-- The least favourable realization. -/
def OrderingBounds.worst (bounds : OrderingBounds) : Realization where
  preference := bounds.preference.conservative
  riskRank := bounds.stackRisk.upper.rank
  cost := bounds.totalCost.high.amount
  coverage := bounds.decisionMaterialCoverage.conservative
  evidenceAge := bounds.maximumEvidenceAgeRatio.upper

/-- The most favourable realization. -/
def OrderingBounds.best (bounds : OrderingBounds) : Realization where
  preference := bounds.preference.optimistic
  riskRank := bounds.stackRisk.lower.rank
  cost := bounds.totalCost.low.amount
  coverage := bounds.decisionMaterialCoverage.optimistic
  evidenceAge := bounds.maximumEvidenceAgeRatio.lower

/-- Coverage bounds in order, as `aggregateCoverageBounds` builds them. -/
def OrderingBounds.CoverageOrdered (bounds : OrderingBounds) : Prop :=
  bounds.decisionMaterialCoverage.conservative ≤ bounds.decisionMaterialCoverage.optimistic

theorem CostBounds.amount_le (cost : CostBounds) : cost.low.amount ≤ cost.high.amount := by
  have hcents : (cost.low.cents : ℚ) ≤ cost.high.cents := by
    exact_mod_cast cost.ordered.1.trans cost.ordered.2
  exact div_le_div_of_nonneg_right hcents (by norm_num)

variable {bounds : OrderingBounds} {plan : BoundedPlan}

theorem OrderingBounds.worst_within (hc : bounds.CoverageOrdered) :
    bounds.worst.Within bounds where
  preference := ⟨le_rfl, bounds.preference.ordered.2.1⟩
  riskRank := ⟨bounds.stackRisk.ordered.1.trans bounds.stackRisk.ordered.2, le_rfl⟩
  cost := ⟨bounds.totalCost.amount_le, le_rfl⟩
  coverage := ⟨le_rfl, hc⟩
  evidenceAge := ⟨bounds.maximumEvidenceAgeRatio.ordered.2, le_rfl⟩

theorem OrderingBounds.best_within (hc : bounds.CoverageOrdered) :
    bounds.best.Within bounds where
  preference := ⟨bounds.preference.ordered.2.1, le_rfl⟩
  riskRank := ⟨le_rfl, bounds.stackRisk.ordered.1.trans bounds.stackRisk.ordered.2⟩
  cost := ⟨le_rfl, bounds.totalCost.amount_le⟩
  coverage := ⟨hc, le_rfl⟩
  evidenceAge := ⟨le_rfl, bounds.maximumEvidenceAgeRatio.ordered.2⟩

/-! ## Envelopes -/

theorem orderingKey_le {p p' c c' v v' a a' : ℚ} {r r' : ℕ} (hp : p' ≤ p) (hr : r ≤ r')
    (hc : c ≤ c') (hv : v' ≤ v) (ha : a ≤ a') :
    orderingKey plan p r c v a ≤ orderingKey plan p' r' c' v' a' := by
  unfold orderingKey
  refine Envelope.toLex_le_toLex le_rfl ?_
  refine Envelope.toLex_le_toLex (neg_le_neg hp) ?_
  refine Envelope.toLex_le_toLex hr ?_
  refine Envelope.toLex_le_toLex hc ?_
  refine Envelope.toLex_le_toLex (neg_le_neg hv) ?_
  exact Envelope.toLex_le_toLex ha le_rfl

theorem conservativeEnvelopeKey_isGreatest (plan : BoundedPlan) (hc : bounds.CoverageOrdered) :
    IsGreatest (realizedKey plan '' {r | r.Within bounds}) (conservativeEnvelopeKey plan bounds) := by
  constructor
  · exact ⟨bounds.worst, OrderingBounds.worst_within hc, rfl⟩
  · rintro _ ⟨r, hr, rfl⟩
    exact orderingKey_le hr.preference.1 hr.riskRank.2 hr.cost.2 hr.coverage.1 hr.evidenceAge.2

theorem optimisticEnvelopeKey_isLeast (plan : BoundedPlan) (hc : bounds.CoverageOrdered) :
    IsLeast (realizedKey plan '' {r | r.Within bounds}) (optimisticEnvelopeKey plan bounds) := by
  constructor
  · exact ⟨bounds.best, OrderingBounds.best_within hc, rfl⟩
  · rintro _ ⟨r, hr, rfl⟩
    exact orderingKey_le hr.preference.2 hr.riskRank.1 hr.cost.1 hr.coverage.2 hr.evidenceAge.1

theorem orderingKey_ne {plan' : BoundedPlan} (h : plan.planId ≠ plan'.planId)
    {p p' c c' v v' a a' : ℚ} {r r' : ℕ} :
    orderingKey plan p r c v a ≠ orderingKey plan' p' r' c' v' a' := by
  intro heq
  simp only [orderingKey, toLex_inj, Prod.mk.injEq] at heq
  exact h heq.2.2.2.2.2.2.2

/-! ## The verdict -/

/-- Competitors whose best key lies below the worst key of the selection. -/
def Overtakes (selected : BoundedPlan) (selectedBounds : OrderingBounds) (plan : BoundedPlan) : Prop :=
  ∃ bounds, plan.bounds = some bounds ∧
    optimisticEnvelopeKey plan bounds < conservativeEnvelopeKey selected selectedBounds

theorem requireBounds_eq_ok : requireBounds plan = .ok bounds ↔ plan.bounds = some bounds := by
  unfold requireBounds
  split <;> simp_all

theorem overtaking_eq_ok (worst : OrderingKey) {competitors : List BoundedPlan}
    (hb : ∀ plan ∈ competitors, ∃ bounds, plan.bounds = some bounds) :
    ∃ ids, overtaking worst competitors = .ok ids ∧
      ∀ id, id ∈ ids ↔ ∃ plan ∈ competitors, plan.planId = id ∧
        ∃ bounds, plan.bounds = some bounds ∧ optimisticEnvelopeKey plan bounds < worst := by
  have hkeyed : ∃ keyed, competitors.mapM (fun plan => do
      let bounds ← requireBounds plan
      return (plan.planId, optimisticEnvelopeKey plan bounds)) = .ok keyed := by
    refine exists_mapM_eq_ok (fun plan hplan => ?_)
    obtain ⟨bounds, hbounds⟩ := hb plan hplan
    exact ⟨_, bind_eq_ok.mpr ⟨bounds, requireBounds_eq_ok.mpr hbounds, rfl⟩⟩
  obtain ⟨keyed, hkeyed⟩ := hkeyed
  refine ⟨(keyed.filter (fun p => decide (p.2 < worst))).map Prod.fst,
    bind_eq_ok.mpr ⟨keyed, hkeyed, rfl⟩, fun id => ?_⟩
  simp only [List.mem_map, List.mem_filter, mem_of_mapM_eq_ok hkeyed, bind_eq_ok,
    requireBounds_eq_ok, pure_eq_ok, decide_eq_true_eq]
  constructor
  · rintro ⟨_, ⟨⟨plan, hplan, bounds, hbounds, rfl⟩, hlt⟩, rfl⟩
    exact ⟨plan, hplan, rfl, bounds, hbounds, hlt⟩
  · rintro ⟨plan, hplan, rfl, bounds, hbounds, hlt⟩
    exact ⟨_, ⟨⟨plan, hplan, bounds, hbounds, rfl⟩, hlt⟩, rfl⟩

theorem assessRankStability_eq_ok {selected : BoundedPlan} {competitors : List BoundedPlan}
    {selectedBounds : OrderingBounds} (hs : selected.bounds = some selectedBounds)
    (hb : ∀ plan ∈ competitors, ∃ bounds, plan.bounds = some bounds) :
    ∃ frontier,
      assessRankStability selected competitors =
        .ok ⟨if frontier.isEmpty then .stable else .unstable, frontier, []⟩ ∧
      ∀ id, id ∈ frontier ↔
        ∃ plan ∈ competitors, plan.planId = id ∧ Overtakes selected selectedBounds plan := by
  have hall : (selected :: competitors).filter (fun plan => plan.bounds.isNone) = [] := by
    refine List.filter_eq_nil_iff.mpr (fun plan hplan => ?_)
    rcases List.mem_cons.mp hplan with rfl | hmem
    · simp [hs]
    · obtain ⟨bounds, hbounds⟩ := hb plan hmem
      simp [hbounds]
  obtain ⟨ids, hids, hmem⟩ :=
    overtaking_eq_ok (conservativeEnvelopeKey selected selectedBounds) hb
  refine ⟨sortedBy id ids, ?_, fun id => ?_⟩
  · simp only [assessRankStability, hall, List.map_nil, requireBounds_eq_ok.mpr hs,
      ok_bind, hids]
    rfl
  · rw [mem_sortedBy, hmem]
    rfl

/-- A choice of values for every plan, inside the bounds of the plans compared. -/
def Realizes (ρ : BoundedPlan → Realization) (plans : List BoundedPlan) : Prop :=
  ∀ plan ∈ plans, ∀ bounds, plan.bounds = some bounds → (ρ plan).Within bounds

/-- Bounds are present and their coverage interval is in order. -/
def Bounded (plan : BoundedPlan) : Prop :=
  ∃ bounds, plan.bounds = some bounds ∧ bounds.CoverageOrdered

/-- The choice in which the selection is at its worst and everything else at its best. -/
noncomputable def adverse (selected : BoundedPlan) (plan : BoundedPlan) : Realization :=
  open Classical in
  match plan.bounds with
  | some bounds => if plan = selected then bounds.worst else bounds.best
  | none => ⟨0, 0, 0, 0, 0⟩

theorem adverse_realizes (selected : BoundedPlan) {plans : List BoundedPlan}
    (hb : ∀ plan ∈ plans, Bounded plan) : Realizes (adverse selected) plans := by
  intro plan hplan bounds hbounds
  obtain ⟨bounds', hbounds', hc⟩ := hb plan hplan
  obtain rfl : bounds' = bounds := Option.some.inj (hbounds'.symm.trans hbounds)
  simp only [adverse, hbounds]
  split
  · exact OrderingBounds.worst_within hc
  · exact OrderingBounds.best_within hc

section Verdict

variable {selected : BoundedPlan} {competitors : List BoundedPlan}
  (hb : ∀ plan ∈ selected :: competitors, Bounded plan)
  (hid : ((selected :: competitors).map (·.planId)).Nodup)

include hb hid

theorem overtakes_iff {selectedBounds : OrderingBounds}
    (hs : selected.bounds = some selectedBounds) {plan : BoundedPlan} (hplan : plan ∈ competitors) :
    Overtakes selected selectedBounds plan ↔
      ∃ ρ, Realizes ρ (selected :: competitors) ∧
        realizedKey plan (ρ plan) < realizedKey selected (ρ selected) := by
  obtain ⟨bounds, hbounds, hc⟩ := hb plan (List.mem_cons_of_mem _ hplan)
  obtain ⟨selectedBounds', hs', hcs⟩ := hb selected List.mem_cons_self
  obtain rfl : selectedBounds' = selectedBounds := Option.some.inj (hs'.symm.trans hs)
  have hne : plan ≠ selected := by
    rintro rfl
    exact (List.nodup_cons.mp hid).1 (List.mem_map_of_mem hplan)
  constructor
  · rintro ⟨bounds', hbounds', hlt⟩
    obtain rfl : bounds' = bounds := Option.some.inj (hbounds'.symm.trans hbounds)
    have hplanBest : adverse selected plan = bounds'.best := by simp [adverse, hbounds, hne]
    have hselWorst : adverse selected selected = selectedBounds'.worst := by simp [adverse, hs]
    refine ⟨adverse selected, adverse_realizes selected hb, ?_⟩
    rw [hplanBest, hselWorst]
    exact hlt
  · rintro ⟨ρ, hρ, hlt⟩
    refine ⟨bounds, hbounds, ?_⟩
    refine (Envelope.exists_lt_iff (conservativeEnvelopeKey_isGreatest selected hcs)
      (optimisticEnvelopeKey_isLeast plan hc)).mp ?_
    exact ⟨ρ selected, hρ selected List.mem_cons_self _ hs, ρ plan,
      hρ plan (List.mem_cons_of_mem _ hplan) _ hbounds, hlt⟩

end Verdict

/-- A verdict of stability holds for every realization, and an unstable verdict
    names exactly the competitors that some realization puts first. -/
theorem assessRankStability_correct {selected : BoundedPlan} {competitors : List BoundedPlan}
    (hb : ∀ plan ∈ selected :: competitors, Bounded plan)
    (hid : ((selected :: competitors).map (·.planId)).Nodup) :
    ∃ result, assessRankStability selected competitors = .ok result ∧
      (result.status = .stable ↔
        ∀ ρ, Realizes ρ (selected :: competitors) →
          ∀ plan ∈ competitors, realizedKey selected (ρ selected) < realizedKey plan (ρ plan)) ∧
      (result.status = .unstable →
        ∀ id, id ∈ result.orderingFrontierPlanIds ↔
          ∃ plan ∈ competitors, plan.planId = id ∧
            ∃ ρ, Realizes ρ (selected :: competitors) ∧
              realizedKey plan (ρ plan) < realizedKey selected (ρ selected)) := by
  obtain ⟨selectedBounds, hs, -⟩ := hb selected List.mem_cons_self
  have hpresent : ∀ plan ∈ competitors, ∃ bounds, plan.bounds = some bounds := by
    intro plan hplan
    obtain ⟨bounds, hbounds, -⟩ := hb plan (List.mem_cons_of_mem _ hplan)
    exact ⟨bounds, hbounds⟩
  obtain ⟨frontier, hresult, hmem⟩ := assessRankStability_eq_ok hs hpresent
  have hfront : ∀ id, id ∈ frontier ↔ ∃ plan ∈ competitors, plan.planId = id ∧
      ∃ ρ, Realizes ρ (selected :: competitors) ∧
        realizedKey plan (ρ plan) < realizedKey selected (ρ selected) := by
    intro id
    rw [hmem]
    refine exists_congr (fun plan => and_congr_right (fun hplan => and_congr_right (fun _ => ?_)))
    exact overtakes_iff hb hid hs hplan
  refine ⟨_, hresult, ?_, fun _ => hfront⟩
  have hstable : ((if frontier.isEmpty then RankStability.stable else .unstable) = .stable) ↔
      frontier = [] := by
    cases frontier <;> simp
  rw [hstable, List.eq_nil_iff_forall_not_mem]
  constructor
  · intro hempty ρ hρ plan hplan
    -- Keys of different plans differ, so a competitor that is not ahead is behind.
    have hne : plan.planId ≠ selected.planId := by
      intro heq
      exact (List.nodup_cons.mp hid).1 (List.mem_map.mpr ⟨plan, hplan, heq⟩)
    refine lt_of_le_of_ne (not_lt.mp (fun hlt => ?_)) (orderingKey_ne hne.symm)
    exact hempty plan.planId ((hfront _).mpr ⟨plan, hplan, rfl, ρ, hρ, hlt⟩)
  · intro hall id hin
    obtain ⟨plan, hplan, -, ρ, hρ, hlt⟩ := (hfront id).mp hin
    exact lt_asymm hlt (hall ρ hρ plan hplan)

/-! ## A stable verdict -/

namespace Sample

/-- Bounds that differ in the preference only. -/
def preferenceBetween (conservative optimistic : ℚ)
    (h : 0 ≤ conservative ∧ conservative ≤ optimistic ∧ optimistic ≤ 100) : OrderingBounds where
  preference := ⟨conservative, optimistic, h⟩
  stackRisk := { lower := .low, base := .low, upper := .medium }
  totalCost :=
    { low :=
        { cents := 1000, currency := "USD", cents_lt := thousand_cents_lt,
          currency_ok := isCurrency_usd }
      base := { cents := 1500, currency := "USD", currency_ok := isCurrency_usd }
      high := { cents := 2000, currency := "USD", currency_ok := isCurrency_usd }
      comparable := ⟨rfl, rfl⟩
      ordered := by decide }
  decisionMaterialCoverage := ⟨0, 1⟩
  maximumEvidenceAgeRatio := ⟨0, 1, by decide +kernel⟩

def leader : BoundedPlan where
  planId := "leader"
  status := .eligible
  stableActionIds := ["no_action", "alpha"]
  bounds := some (preferenceBetween 90 95 (by decide +kernel))
  boundUnavailableReasons := []
  admitted := by decide +kernel

def rival : BoundedPlan where
  planId := "rival"
  status := .eligible
  stableActionIds := ["replace", "crm"]
  bounds := some (preferenceBetween 10 60 (by decide +kernel))
  boundUnavailableReasons := []
  admitted := by decide +kernel

end Sample

theorem assessRankStability_correct_sample :
    assessRankStability Sample.leader [Sample.rival] = .ok ⟨.stable, [], []⟩ ∧
      ∀ ρ, Realizes ρ [Sample.leader, Sample.rival] →
        realizedKey Sample.leader (ρ Sample.leader) < realizedKey Sample.rival (ρ Sample.rival) := by
  have hrun : assessRankStability Sample.leader [Sample.rival] = .ok ⟨.stable, [], []⟩ := by
    decide +kernel
  have hbounded : ∀ plan ∈ [Sample.leader, Sample.rival], Bounded plan := by
    have hcovered : (0 : ℚ) ≤ 1 := by decide +kernel
    intro plan hplan
    rcases List.mem_cons.mp hplan with rfl | hplan
    · exact ⟨_, rfl, hcovered⟩
    · rw [List.mem_singleton.mp hplan]
      exact ⟨_, rfl, hcovered⟩
  obtain ⟨result, hresult, hstable, -⟩ :=
    assessRankStability_correct hbounded (by decide)
  rw [hrun] at hresult
  cases hresult
  exact ⟨hrun, fun ρ hρ => hstable.mp rfl ρ hρ Sample.rival (List.mem_singleton_self _)⟩

end DecisionEngine
