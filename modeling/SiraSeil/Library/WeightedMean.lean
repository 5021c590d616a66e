-- SUMMARY: The weighted mean of a list, which scaling the weights or reordering the list leaves as it is, which rises with the values and lies between two of them.
import Mathlib.Algebra.BigOperators.Group.List.Basic
import Mathlib.Algebra.BigOperators.Ring.List
import Mathlib.Algebra.Order.BigOperators.Group.List
import Mathlib.Algebra.Order.Field.Basic

/-!
# Weighted means

An entry is a weight and a value. The weights are positive where it matters, so their sum is not
zero once there is an entry.
-/

namespace WeightedMean

variable {K : Type*} [Field K]

/-- The sum of the weights -/
def weight (entries : List (K × K)) : K :=
  (entries.map Prod.fst).sum

/-- The sum of the weighted values -/
def total (entries : List (K × K)) : K :=
  (entries.map (fun e => e.1 * e.2)).sum

def mean (entries : List (K × K)) : K :=
  total entries / weight entries

/-- The same entries with all weights multiplied by a factor -/
def scale (factor : K) (entries : List (K × K)) : List (K × K) :=
  entries.map (fun e => (factor * e.1, e.2))

variable {entries entries' : List (K × K)}

theorem weight_scale (factor : K) : weight (scale factor entries) = factor * weight entries := by
  simp only [weight, scale, List.map_map, Function.comp_def]
  exact List.sum_map_mul_left entries Prod.fst factor

theorem total_scale (factor : K) : total (scale factor entries) = factor * total entries := by
  simp only [total, scale, List.map_map, Function.comp_def, mul_assoc]
  exact List.sum_map_mul_left entries (fun e => e.1 * e.2) factor

theorem mean_scale {factor : K} (hfactor : factor ≠ 0) :
    mean (scale factor entries) = mean entries := by
  simp only [mean, weight_scale, total_scale]
  exact mul_div_mul_left _ _ hfactor

theorem mean_perm (h : entries.Perm entries') : mean entries = mean entries' := by
  simp only [mean, total, weight, (h.map _).sum_eq]

variable [LinearOrder K] [IsStrictOrderedRing K]

/-- Every entry counts. -/
def Positive (entries : List (K × K)) : Prop :=
  ∀ e ∈ entries, 0 < e.1

theorem weight_pos (hpos : Positive entries) (hne : entries ≠ []) : 0 < weight entries := by
  refine List.sum_pos _ (fun w hw => ?_) (by simpa using hne)
  obtain ⟨e, he, rfl⟩ := List.mem_map.mp hw
  exact hpos e he

theorem weight_mul_mean (hpos : Positive entries) (hne : entries ≠ []) :
    (entries.map (fun e => e.1 * mean entries)).sum = total entries := by
  rw [List.sum_map_mul_right, ← weight, mean]
  exact mul_div_cancel₀ _ (weight_pos hpos hne).ne'

theorem exists_le_mean (hpos : Positive entries) (hne : entries ≠ []) :
    ∃ e ∈ entries, e.2 ≤ mean entries := by
  obtain ⟨e, he, hle⟩ := List.exists_le_of_sum_le hne (fun e : K × K => e.1 * e.2)
    (fun e => e.1 * mean entries) (weight_mul_mean hpos hne).ge
  exact ⟨e, he, le_of_mul_le_mul_left hle (hpos e he)⟩

theorem exists_mean_le (hpos : Positive entries) (hne : entries ≠ []) :
    ∃ e ∈ entries, mean entries ≤ e.2 := by
  obtain ⟨e, he, hle⟩ := List.exists_le_of_sum_le hne (fun e : K × K => e.1 * mean entries)
    (fun e => e.1 * e.2) (weight_mul_mean hpos hne).le
  exact ⟨e, he, le_of_mul_le_mul_left hle (hpos e he)⟩

theorem mean_le_mean (hpos : Positive entries)
    (h : List.Forall₂ (fun e e' => e'.1 = e.1 ∧ e.2 ≤ e'.2) entries entries') :
    mean entries ≤ mean entries' := by
  have hsums : weight entries' = weight entries ∧ total entries ≤ total entries' := by
    induction h with
    | nil => exact ⟨rfl, le_rfl⟩
    | @cons e e' entries entries' he _ ih =>
      obtain ⟨he_pos, hpos⟩ := List.forall_mem_cons.mp hpos
      obtain ⟨hweight, htotal⟩ := ih hpos
      have hvalue : e.1 * e.2 ≤ e'.1 * e'.2 := by
        rw [he.1]
        exact mul_le_mul_of_nonneg_left he.2 he_pos.le
      constructor
      · simpa [weight, he.1] using hweight
      · simpa [total] using add_le_add hvalue htotal
  by_cases hne : entries = []
  · subst hne
    cases h
    exact le_rfl
  · rw [mean, mean, hsums.1]
    exact div_le_div_of_nonneg_right hsums.2 (weight_pos hpos hne).le

end WeightedMean
