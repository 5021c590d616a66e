-- SUMMARY: A preference for lower numbers gives lower numbers no lower satisfaction exactly when the satisfactions of its points never rise.
import SiraSeil.Library.Thresholds
import SiraSeil.DecisionEngine.Scores
import SiraSeil.Domain.Hashing

/-!
# Lower is better

`_normalization_value` reads the points of a `LOWER_IS_BETTER` criterion as a table of thresholds.
The constructor sorts the points and checks that their satisfactions are in the declared domain,
which starts at zero. It compares no two satisfactions.
-/

namespace DecisionEngine

open Domain

/-- The points of a criterion, with their maxima as ratios -/
def thresholds (points : List (Int × ℚ)) : List (ℚ × ℚ) :=
  points.map (fun p => ((p.1 : ℚ), p.2))

theorem piecewise_eq_read (points : List (Int × ℚ)) (numeric : ℚ) :
    piecewise points numeric = Thresholds.read (thresholds points) 0 numeric := by
  induction points with
  | nil => rfl
  | cons p points ih =>
    by_cases hp : numeric ≤ p.1
    · rw [thresholds, List.map_cons, Thresholds.read_cons_of_le hp]
      simp [piecewise, hp]
    · rw [thresholds, List.map_cons, Thresholds.read_cons_of_lt (not_le.mp hp), ← thresholds, ← ih]
      simp [piecewise, hp]

/-- The numbers that a fact can have -/
def numbers (rt : Runtime) : Set ℚ :=
  {x | ∃ value, numeric? rt value = some (.ok x)}

theorem int_mem_numbers {rt : Runtime} (n : Int) : (n : ℚ) ∈ numbers rt := ⟨.int n, rfl⟩

/-- Of two numeric values of facts, the lower one gets no lower satisfaction. -/
def LowerIsBetter (rt : Runtime) (criterion : PreferenceCriterion) : Prop :=
  ∀ lower higher x y, numeric? rt lower = some (.ok x) → numeric? rt higher = some (.ok y) →
    x ≤ y → ∃ better worse, normalizationValue rt criterion lower = .ok better ∧
      normalizationValue rt criterion higher = .ok worse ∧ worse ≤ better

/-- No point has a higher satisfaction than a point before it. -/
def SatisfactionsFall (criterion : PreferenceCriterion) : Prop :=
  criterion.lowerIsBetterPoints.Pairwise (fun p q => q.2 ≤ p.2)

section Criterion

variable {rt : Runtime} {criterion : PreferenceCriterion}

theorem sorted_thresholds (criterion : PreferenceCriterion) :
    Thresholds.Sorted (thresholds criterion.lowerIsBetterPoints) := by
  refine List.pairwise_map.mpr (criterion.points_sorted.imp (fun {p q} hpq => ?_))
  rcases hpq with hlt | rfl
  · exact .inl (Int.cast_lt (R := ℚ) |>.mpr hlt)
  · exact .inr rfl

theorem points_nonneg (hkind : criterion.normalization = .lowerIsBetter) :
    ∀ p ∈ thresholds criterion.lowerIsBetterPoints, 0 ≤ p.2 := by
  have hadmitted := criterion.admitted
  simp only [PreferenceCriterionData.postInit, Raising.check_bind_eq_ok, demand_eq_ok,
    Bool.and_eq_true, Bool.or_eq_true, List.all_eq_true, bne_iff_ne, decide_eq_true_eq, hkind,
    ne_eq, not_true_eq_false, false_or, List.contains_iff_mem] at hadmitted
  obtain ⟨-, -, ⟨-, hdomain⟩, -, -, -, -, hpoints, -⟩ := hadmitted
  intro p hp
  obtain ⟨q, hq, rfl⟩ := List.mem_map.mp hp
  exact (hdomain q.2 (hpoints q hq)).1

theorem normalizationValue_numeric (hkind : criterion.normalization = .lowerIsBetter)
    {value : FactValue} {x : ℚ} (hx : numeric? rt value = some (.ok x)) :
    normalizationValue rt criterion value =
      .ok (Thresholds.read (thresholds criterion.lowerIsBetterPoints) 0 x) := by
  simp only [normalizationValue, hkind, hx, ← piecewise_eq_read]
  rfl

theorem lowerIsBetter_iff_antitoneOn (hkind : criterion.normalization = .lowerIsBetter) :
    LowerIsBetter rt criterion ↔
      AntitoneOn (Thresholds.read (thresholds criterion.lowerIsBetterPoints) 0) (numbers rt) := by
  constructor
  · rintro h x ⟨lower, hlower⟩ y ⟨higher, hhigher⟩ hxy
    obtain ⟨better, worse, hbetter, hworse, hle⟩ := h lower higher x y hlower hhigher hxy
    rw [normalizationValue_numeric hkind hlower] at hbetter
    rw [normalizationValue_numeric hkind hhigher] at hworse
    cases hbetter
    cases hworse
    exact hle
  · intro h lower higher x y hlower hhigher hxy
    exact ⟨_, _, normalizationValue_numeric hkind hlower, normalizationValue_numeric hkind hhigher,
      h ⟨lower, hlower⟩ ⟨higher, hhigher⟩ hxy⟩

/-- Lower is better under a criterion exactly when the satisfactions of its points never rise. -/
theorem lowerIsBetter_iff (hkind : criterion.normalization = .lowerIsBetter) :
    LowerIsBetter rt criterion ↔ SatisfactionsFall criterion := by
  have hinputs : ∀ p ∈ thresholds criterion.lowerIsBetterPoints, p.1 ∈ numbers rt := by
    intro p hp
    obtain ⟨q, -, rfl⟩ := List.mem_map.mp hp
    exact int_mem_numbers q.1
  rw [lowerIsBetter_iff_antitoneOn hkind,
    Thresholds.antitoneOn_read_iff (sorted_thresholds criterion) (points_nonneg hkind) hinputs]
  exact List.pairwise_map

end Criterion

/-! ## Two tables -/

namespace Sample

def seats : PreferenceCriterion where
  criterionId := "seats"
  field := "product.seats"
  weight := 1
  coverageWeight := 1
  normalization := .lowerIsBetter
  expected := .none
  sourceFactIds := .of []
  appliesToActions := []
  allowedSatisfactions := .of [0, 1 / 2, 1]
  lowerIsBetterPoints := [(10, 1), (20, 1 / 2)]

/-- The satisfactions are in the order of the maxima. -/
def risingSeats : PreferenceCriterion where
  criterionId := "seats"
  field := "product.seats"
  weight := 1
  coverageWeight := 1
  normalization := .lowerIsBetter
  expected := .none
  sourceFactIds := .of []
  appliesToActions := []
  allowedSatisfactions := .of [0, 1 / 2, 1]
  lowerIsBetterPoints := [(10, 0), (20, 1)]

end Sample

theorem lowerIsBetter_iff_sample :
    Sample.seats.normalization = .lowerIsBetter ∧
      (LowerIsBetter .ascii Sample.seats ↔ SatisfactionsFall Sample.seats) :=
  ⟨rfl, lowerIsBetter_iff rfl⟩

/-- Ten seats get less than eleven. -/
theorem rising_points_not_lowerIsBetter :
    ¬ ∀ (rt : Runtime) (criterion : PreferenceCriterion),
      criterion.normalization = .lowerIsBetter → LowerIsBetter rt criterion := by
  intro h
  obtain ⟨better, worse, hbetter, hworse, hle⟩ :=
    h .ascii Sample.risingSeats rfl (.int 10) (.int 11) 10 11 rfl rfl (by decide)
  cases hbetter
  cases hworse
  exact absurd hle (by decide +kernel)

end DecisionEngine
