-- SUMMARY: The preference bounds of a plan are weighted means in exact arithmetic, and an exact ratio is a record in lowest terms.
import Mathlib.Algebra.BigOperators.Ring.Finset
import Mathlib.Data.Rat.Lemmas
import Mathlib.Tactic.Linarith
import SiraSeil.Library.WeightedMean
import SiraSeil.DecisionEngine.Bounds

/-!
# Preference aggregation

`aggregate_preference_bounds` computes both bounds as hundred times a weighted mean. The bounds are
stored as `ExactRatio` records, which are compared field by field, so the second part is about the
constructor of that record.
-/

namespace DecisionEngine

open Domain

/-! ## Exact ratios -/

structure ExactRatio where
  numerator : Int
  denominator : Int
  deriving DecidableEq

namespace ExactRatio

/-- `ExactRatio.__init__` -/
def new (numerator denominator : Int) : Py ExactRatio :=
  if denominator = 0 then
    .error (.domainValidation "an exact ratio requires integer numerator/denominator")
  else
    let sign := if denominator < 0 then -1 else 1
    let divisor := Int.gcd numerator denominator
    .ok ⟨sign * numerator / divisor, |denominator| / divisor⟩

/-- `ExactRatio.fraction` -/
def fraction (r : ExactRatio) : ℚ :=
  r.numerator / r.denominator

/-- In lowest terms, with a positive denominator -/
structure Reduced (r : ExactRatio) : Prop where
  positive : 0 < r.denominator
  coprime : Int.gcd r.numerator r.denominator = 1

/-- The record of a fraction -/
def of (q : ℚ) : ExactRatio := ⟨q.num, q.den⟩

theorem Reduced.eq_of {r : ExactRatio} (h : r.Reduced) : r = of r.fraction := by
  have hnum : r.fraction.num = r.numerator := Rat.num_div_eq_of_coprime h.positive h.coprime
  have hden : (r.fraction.den : Int) = r.denominator := Rat.den_div_eq_of_coprime h.positive h.coprime
  obtain ⟨numerator, denominator⟩ := r
  simp only [of, hnum, hden]

theorem reduced_of (q : ℚ) : (of q).Reduced :=
  ⟨Int.natCast_pos.mpr q.den_pos, q.reduced⟩

@[simp]
theorem fraction_of (q : ℚ) : (of q).fraction = q := by
  simp [of, fraction, Rat.num_div_den]

theorem new_eq_of {numerator denominator : Int} (hne : denominator ≠ 0) :
    new numerator denominator = .ok (of (numerator / denominator)) := by
  have hgcd : 0 < Int.gcd numerator denominator := Int.gcd_pos_of_ne_zero_right _ hne
  obtain ⟨n, d, hcoprime, hn, hd⟩ := Int.exists_gcd_one hgcd
  generalize hg : Int.gcd numerator denominator = g at *
  have hg_ne : (g : Int) ≠ 0 := by exact_mod_cast hgcd.ne'
  have hd_ne : d ≠ 0 := by
    rintro rfl
    simp [hne] at hd
  -- The record has the numerator and the denominator of `n / d`, with the sign above.
  have hrecord : new numerator denominator = .ok ⟨(if d < 0 then -1 else 1) * n, |d|⟩ := by
    have hsign : denominator < 0 ↔ d < 0 := by
      rw [hd]
      exact ⟨fun h => neg_of_mul_neg_left h (Int.natCast_nonneg g),
        fun h => mul_neg_of_neg_of_pos h (by exact_mod_cast hgcd)⟩
    have habs : |denominator| = |d| * g := by rw [hd, abs_mul, Int.natCast_nonneg g |> abs_of_nonneg]
    simp only [new, if_neg hne, hg, hsign, habs, Int.mul_ediv_cancel _ hg_ne, Except.ok.injEq,
      mk.injEq, and_true]
    conv_lhs => rw [hn, ← mul_assoc]
    exact Int.mul_ediv_cancel _ hg_ne
  rw [hrecord]
  have hreduced : Reduced ⟨(if d < 0 then -1 else 1) * n, |d|⟩ := by
    constructor
    · exact abs_pos.mpr hd_ne
    · split <;> simpa [Int.gcd, Int.natAbs_abs] using hcoprime
  rw [hreduced.eq_of]
  congr 2
  have hg_q : (g : ℚ) ≠ 0 := by exact_mod_cast hgcd.ne'
  have hd_q : (d : ℚ) ≠ 0 := by exact_mod_cast hd_ne
  rw [hn, hd]
  push_cast
  rw [mul_div_mul_right _ _ hg_q, fraction]
  split
  · next hneg => simp [abs_of_neg hneg, neg_div_neg_eq]
  · next hpos => simp [abs_of_nonneg (not_lt.mp hpos)]

theorem eq_of_fraction {n d n' d' : Int} {r r' : ExactRatio} (h : new n d = .ok r)
    (h' : new n' d' = .ok r') (heq : r.fraction = r'.fraction) : r = r' := by
  have hbuilt : ∀ {n d : Int} {r : ExactRatio}, new n d = .ok r → r = of r.fraction := by
    intro n d r h
    by_cases hd : d = 0
    · simp [new, hd] at h
    · rw [new_eq_of hd] at h
      cases h
      rw [fraction_of]
  rw [hbuilt h, hbuilt h', heq]

end ExactRatio

/-! ## Aggregation -/

/-- Weights and satisfactions of the criteria -/
def entries (satisfaction : PreferenceCriterionBound → ℚ) (criteria : List PreferenceCriterionBound) :
    List (ℚ × ℚ) :=
  criteria.map (fun c => ((c.weight : ℚ), satisfaction c))

/-- Hundred times the mean satisfaction -/
def score (satisfaction : PreferenceCriterionBound → ℚ) (criteria : List PreferenceCriterionBound) :
    ℚ :=
  100 * WeightedMean.mean (entries satisfaction criteria)

section Scores

variable {satisfaction : PreferenceCriterionBound → ℚ}
  {criteria criteria' : List PreferenceCriterionBound}

theorem positive_entries : WeightedMean.Positive (entries satisfaction criteria) := by
  intro e he
  obtain ⟨c, -, rfl⟩ := List.mem_map.mp he
  exact Nat.cast_pos.mpr c.weight_ok.1

theorem score_between (hne : criteria ≠ []) :
    (∃ c ∈ criteria, 100 * satisfaction c ≤ score satisfaction criteria) ∧
      ∃ c ∈ criteria, score satisfaction criteria ≤ 100 * satisfaction c := by
  have hentries : entries satisfaction criteria ≠ [] := by simpa [entries] using hne
  constructor
  · obtain ⟨e, he, hle⟩ := WeightedMean.exists_le_mean positive_entries hentries
    obtain ⟨c, hc, rfl⟩ := List.mem_map.mp he
    exact ⟨c, hc, mul_le_mul_of_nonneg_left hle (by norm_num)⟩
  · obtain ⟨e, he, hle⟩ := WeightedMean.exists_mean_le positive_entries hentries
    obtain ⟨c, hc, rfl⟩ := List.mem_map.mp he
    exact ⟨c, hc, mul_le_mul_of_nonneg_left hle (by norm_num)⟩

theorem score_perm (h : criteria.Perm criteria') :
    score satisfaction criteria = score satisfaction criteria' := by
  have hentries : (entries satisfaction criteria).Perm (entries satisfaction criteria') := h.map _
  rw [score, score, WeightedMean.mean_perm hentries]

/-- The same criteria with all weights multiplied by a factor -/
def Scaled (factor : ℚ) : List PreferenceCriterionBound → List PreferenceCriterionBound → Prop :=
  List.Forall₂ (fun c c' => c'.criterionId = c.criterionId ∧ (c'.weight : ℚ) = factor * c.weight ∧
    c'.conservativeSatisfaction = c.conservativeSatisfaction ∧
    c'.optimisticSatisfaction = c.optimisticSatisfaction)

/-- The same criteria, none of them with a lower satisfaction -/
def Raised : List PreferenceCriterionBound → List PreferenceCriterionBound → Prop :=
  List.Forall₂ (fun c c' => c'.criterionId = c.criterionId ∧ c'.weight = c.weight ∧
    c.conservativeSatisfaction ≤ c'.conservativeSatisfaction ∧
    c.optimisticSatisfaction ≤ c'.optimisticSatisfaction)

theorem score_scaled {factor : ℚ} (hne : criteria ≠ [])
    (h : List.Forall₂ (fun c c' => (c'.weight : ℚ) = factor * c.weight ∧
      satisfaction c' = satisfaction c) criteria criteria') :
    score satisfaction criteria' = score satisfaction criteria := by
  have hentries : entries satisfaction criteria' =
      WeightedMean.scale factor (entries satisfaction criteria) := by
    clear hne
    induction h with
    | nil => rfl
    | cons hc _ ih =>
      simp only [entries, WeightedMean.scale, List.map_cons, hc.1, hc.2] at ih ⊢
      rw [ih]
  -- A factor of zero would leave no weight.
  have hfactor : factor ≠ 0 := by
    rintro rfl
    cases h with
    | nil => exact hne rfl
    | @cons c c' _ _ hc _ =>
      have hweight : c'.weight = 0 := by simpa using hc.1
      exact absurd c'.weight_ok.1 (by omega)
  rw [score, score, hentries, WeightedMean.mean_scale hfactor]

theorem score_raised
    (h : List.Forall₂ (fun c c' => c'.weight = c.weight ∧ satisfaction c ≤ satisfaction c')
      criteria criteria') : score satisfaction criteria ≤ score satisfaction criteria' := by
  refine mul_le_mul_of_nonneg_left (WeightedMean.mean_le_mean positive_entries ?_) (by norm_num)
  refine List.forall₂_map_left_iff.mpr (List.forall₂_map_right_iff.mpr (h.imp ?_))
  rintro c c' ⟨hweight, hle⟩
  exact ⟨by rw [hweight], hle⟩

end Scores

theorem aggregatePreferenceBounds_eq {criteria : List PreferenceCriterionBound}
    (hne : criteria ≠ []) (hunique : (criteria.map (·.criterionId)).Nodup) :
    ∃ bounds, aggregatePreferenceBounds criteria = .ok bounds ∧
      bounds.conservative = score (·.conservativeSatisfaction) criteria ∧
      bounds.optimistic = score (·.optimisticSatisfaction) criteria := by
  have hscore : ∀ satisfaction : PreferenceCriterionBound → ℚ,
      100 * (criteria.map (fun item => (item.weight : ℚ) * satisfaction item)).sum /
        ((criteria.map (·.weight)).sum : Nat) = score satisfaction criteria := by
    intro satisfaction
    simp [score, WeightedMean.mean, WeightedMean.total, WeightedMean.weight, entries, mul_div_assoc,
      Function.comp_def, Nat.cast_list_sum]
  have hordered : 0 ≤ score (·.conservativeSatisfaction) criteria ∧
      score (·.conservativeSatisfaction) criteria ≤ score (·.optimisticSatisfaction) criteria ∧
      score (·.optimisticSatisfaction) criteria ≤ 100 := by
    refine ⟨?_, ?_, ?_⟩
    · obtain ⟨⟨c, -, hle⟩, -⟩ := score_between hne
      exact (mul_nonneg (by norm_num) c.satisfaction_ok.1).trans hle
    · refine mul_le_mul_of_nonneg_left (WeightedMean.mean_le_mean positive_entries ?_) (by norm_num)
      refine List.forall₂_map_left_iff.mpr (List.forall₂_map_right_iff.mpr
        (List.forall₂_same.mpr (fun c _ => ?_)))
      exact ⟨rfl, c.satisfaction_ok.2.1⟩
    · obtain ⟨-, c, -, hle⟩ := score_between hne
      have hc := c.satisfaction_ok.2.2
      linarith only [hle, hc]
  refine ⟨⟨_, _, hordered⟩, ?_, rfl, rfl⟩
  simp only [aggregatePreferenceBounds, if_neg hne, hunique, not_true_eq_false, if_false, hscore,
    PreferenceScoreBounds.new, dif_pos hordered]

/-- The bounds of criteria are weighted means: in range, blind to the scale of the weights and to
    the order of the criteria, no lower for higher satisfactions, between two satisfactions, and
    stored as reduced records. -/
structure MeansOf (criteria : List PreferenceCriterionBound) (bounds : PreferenceScoreBounds) :
    Prop where
  returned : aggregatePreferenceBounds criteria = .ok bounds
  in_range : 0 ≤ bounds.conservative ∧ bounds.conservative ≤ bounds.optimistic ∧
    bounds.optimistic ≤ 100
  scaled : ∀ factor scaled, Scaled factor criteria scaled →
    aggregatePreferenceBounds scaled = .ok bounds
  permuted : ∀ permuted, criteria.Perm permuted → aggregatePreferenceBounds permuted = .ok bounds
  raised : ∀ raised, Raised criteria raised → ∃ higher, aggregatePreferenceBounds raised = .ok higher ∧
    bounds.conservative ≤ higher.conservative ∧ bounds.optimistic ≤ higher.optimistic
  conservative_between :
    (∃ c ∈ criteria, 100 * c.conservativeSatisfaction ≤ bounds.conservative) ∧
      ∃ c ∈ criteria, bounds.conservative ≤ 100 * c.conservativeSatisfaction
  optimistic_between :
    (∃ c ∈ criteria, 100 * c.optimisticSatisfaction ≤ bounds.optimistic) ∧
      ∃ c ∈ criteria, bounds.optimistic ≤ 100 * c.optimisticSatisfaction
  reduced : ∀ q ∈ [bounds.conservative, bounds.optimistic], ∃ record,
    ExactRatio.new q.num q.den = .ok record ∧ record.Reduced ∧ record.fraction = q

theorem PreferenceScoreBounds.ext {b b' : PreferenceScoreBounds}
    (hconservative : b.conservative = b'.conservative) (hoptimistic : b.optimistic = b'.optimistic) :
    b = b' := by
  cases b
  cases b'
  simp_all

theorem ids_of_forall₂ {R : PreferenceCriterionBound → PreferenceCriterionBound → Prop}
    (hR : ∀ c c', R c c' → c'.criterionId = c.criterionId)
    {criteria criteria' : List PreferenceCriterionBound} (h : List.Forall₂ R criteria criteria') :
    criteria'.map (·.criterionId) = criteria.map (·.criterionId) := by
  induction h with
  | nil => rfl
  | cons hc _ ih => rw [List.map_cons, List.map_cons, hR _ _ hc, ih]

theorem aggregatePreferenceBounds_of_ids {criteria criteria' : List PreferenceCriterionBound}
    (hne : criteria ≠ []) (hunique : (criteria.map (·.criterionId)).Nodup)
    (hids : criteria'.map (·.criterionId) = criteria.map (·.criterionId)) :
    ∃ bounds, aggregatePreferenceBounds criteria' = .ok bounds ∧
      bounds.conservative = score (·.conservativeSatisfaction) criteria' ∧
      bounds.optimistic = score (·.optimisticSatisfaction) criteria' := by
  refine aggregatePreferenceBounds_eq ?_ (hids ▸ hunique)
  rintro rfl
  exact hne (List.map_eq_nil_iff.mp hids.symm)

namespace Sample

def fit : PreferenceCriterionBound where
  criterionId := "fit"
  weight := 2
  conservativeSatisfaction := 1 / 2
  optimisticSatisfaction := 1
  criterionId_ok := by decide +kernel
  weight_ok := by decide
  satisfaction_ok := by decide +kernel

end Sample

end DecisionEngine
