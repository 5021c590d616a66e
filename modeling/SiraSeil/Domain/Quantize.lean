-- SUMMARY: Decimals with a fixed exponent: quantize keeps a number or rounds it, and raises exactly from half a unit below the numbers that need too many digits.
import SiraSeil.Domain.DecimalArithmetic

/-!
# Quantize

`Decimal.quantize` rounds a number to one exponent, half to even, and raises
`InvalidOperation` where the result has more digits than the context.
-/

namespace Domain

namespace PyDecimal

/-- `adjusted`, of a number other than zero -/
def adjusted (d : PyDecimal) : Int :=
  d.length + d.exponent - 1

/-- `_rescale` -/
def rescale (d : PyDecimal) (exponent : Int) : PyDecimal :=
  if d.coefficient = 0 then ⟨d.negative, 0, exponent⟩
  else if exponent ≤ d.exponent then d.padded (d.exponent - exponent).toNat
  else ⟨d.negative, roundHalfEven d.coefficient (exponent - d.exponent).toNat, exponent⟩

/-- `quantize` in the default context; none where it raises `InvalidOperation` -/
def quantize (d : PyDecimal) (exponent : Int) : Option PyDecimal :=
  if exponent < exponentTiny ∨ exponentMax < exponent then none
  else if d.coefficient = 0 then (d.rescale exponent).fixed
  else if exponentMax < d.adjusted then none
  else if (precision : Int) < d.adjusted - exponent + 1 then none
  else if exponentMax < (d.rescale exponent).adjusted ∨ precision < (d.rescale exponent).length then
    none
  else (d.rescale exponent).fixed

/-- `format(value, ".2f")` -/
def formatTwo (d : PyDecimal) : List Char :=
  (d.rescale (-2)).format

/-! ## Powers of ten -/

section Powers

variable {d : PyDecimal}

theorem adjusted_lt_iff (hpos : d.coefficient ≠ 0) {k : Int} :
    d.adjusted < k ↔ (d.coefficient : ℚ) * 10 ^ d.exponent < 10 ^ k := by
  have hten : (1 : ℚ) < 10 := by norm_num
  have hpower : (0 : ℚ) < 10 ^ d.exponent := zpow_pos (by norm_num) _
  have hlength : 0 < d.length := Nat.length_toDigits_pos
  constructor
  · intro h
    have hdigits : (d.coefficient : ℚ) < 10 ^ (d.length : Int) := by
      rw [zpow_natCast]
      exact_mod_cast d.lt_pow_length
    calc (d.coefficient : ℚ) * 10 ^ d.exponent
        < 10 ^ (d.length : Int) * 10 ^ d.exponent := mul_lt_mul_of_pos_right hdigits hpower
      _ = 10 ^ (d.length + d.exponent) := (zpow_add₀ (by norm_num) _ _).symm
      _ ≤ 10 ^ k := zpow_le_zpow_right₀ hten.le (by unfold adjusted at h; omega)
  · intro h
    have hdigits : (10 : ℚ) ^ ((d.length - 1 : Nat) : Int) ≤ d.coefficient := by
      rw [zpow_natCast]
      exact_mod_cast pow_pred_length_le hpos
    have hchain : (10 : ℚ) ^ d.adjusted < 10 ^ k := by
      calc (10 : ℚ) ^ d.adjusted
          = 10 ^ ((d.length - 1 : Nat) : Int) * 10 ^ d.exponent := by
            rw [← zpow_add₀ (by norm_num)]
            congr 1
            unfold adjusted
            omega
        _ ≤ d.coefficient * 10 ^ d.exponent := mul_le_mul_of_nonneg_right hdigits hpower.le
        _ < 10 ^ k := h
    exact (zpow_lt_zpow_iff_right₀ hten).mp hchain

end Powers

/-! ## Rounding half to even -/

theorem le_roundHalfEven_iff {coefficient drop bound : Nat} (hpos : 0 < bound)
    (heven : bound % 2 = 0) :
    bound ≤ roundHalfEven coefficient drop ↔ (2 * bound - 1) * 10 ^ drop ≤ 2 * coefficient := by
  have hunit : 0 < 10 ^ drop := Nat.pow_pos (by decide)
  have hrest : coefficient % 10 ^ drop < 10 ^ drop := Nat.mod_lt _ hunit
  have hsplit : 10 ^ drop * (coefficient / 10 ^ drop) + coefficient % 10 ^ drop = coefficient :=
    Nat.div_add_mod _ _
  have hscale : (2 * bound - 1) * 10 ^ drop + 10 ^ drop = 2 * (10 ^ drop * bound) := by
    obtain ⟨b, rfl⟩ := Nat.exists_eq_add_of_lt hpos
    have hminus : 2 * (0 + b + 1) - 1 = 2 * b + 1 := by omega
    rw [hminus]
    ring
  unfold roundHalfEven
  simp only
  generalize coefficient / 10 ^ drop = kept at *
  generalize coefficient % 10 ^ drop = rest at *
  generalize 10 ^ drop = unit at *
  rcases lt_trichotomy (kept + 1) bound with hlow | hedge | hhigh
  · have hfar : unit * (kept + 2) ≤ unit * bound := Nat.mul_le_mul_left _ hlow
    have hexpand : unit * (kept + 2) = unit * kept + 2 * unit := by ring
    constructor
    · intro h
      split at h <;> omega
    · intro h
      omega
  · have hexpand : unit * bound = unit * kept + unit := by
      rw [← hedge]
      ring
    -- what is kept is odd, so a tie is rounded up
    have hodd : kept % 2 = 1 := by omega
    constructor
    · intro h
      split at h <;> omega
    · intro h
      rw [if_pos (by omega)]
      omega
  · have hnear : unit * bound ≤ unit * kept := Nat.mul_le_mul_left _ (by omega)
    constructor
    · intro h
      omega
    · intro h
      split <;> omega

/-! ## What quantize returns -/

section Quantize

variable {d q : PyDecimal} {exponent : Int}

@[simp] theorem rescale_exponent (d : PyDecimal) (exponent : Int) :
    (d.rescale exponent).exponent = exponent := by
  unfold rescale
  split
  · rfl
  · split
    · simp only [padded]
      omega
    · rfl

@[simp] theorem rescale_negative (d : PyDecimal) (exponent : Int) :
    (d.rescale exponent).negative = d.negative := by
  unfold rescale padded
  split
  · rfl
  · split <;> rfl

theorem fixed_self (hlength : q.length ≤ precision) (hlow : exponentTiny ≤ q.exponent)
    (hhigh : q.exponent ≤ exponentTop) : q.fixed = some q := by
  have htop : exponentTop < exponentMax := by decide
  unfold fixed
  split
  · next hzero =>
    rw [max_eq_left hlow, min_eq_left (by omega), ← hzero]
  · unfold fix
    rw [if_neg (by omega), if_neg]
    unfold exponentLeast
    omega

theorem rescale_value {n : Nat} (hvalue : d.value = n * 10 ^ exponent) :
    (d.rescale exponent).value = d.value := by
  have hten : (10 : ℚ) ≠ 0 := by norm_num
  unfold rescale
  split
  · next hzero =>
    rw [value_eq_zero.mpr hzero]
    exact value_eq_zero.mpr rfl
  · split
    · exact value_padded d _
    · next hround =>
      have hsplit : exponent = ((exponent - d.exponent).toNat : Int) + d.exponent := by omega
      have hnonneg : 0 ≤ d.value := hvalue ▸ by positivity
      have hexact : d.coefficient = n * 10 ^ (exponent - d.exponent).toNat := by
        have hscaled := (value_of_nonneg hnonneg).symm.trans hvalue
        rw [hsplit, zpow_add₀ hten, zpow_natCast, ← mul_assoc] at hscaled
        exact_mod_cast mul_right_cancel₀ (zpow_ne_zero d.exponent hten) hscaled
      rw [hexact, roundHalfEven_exact, hvalue]
      cases hsign : d.negative with
      | false => exact value_of_positive rfl
      | true =>
        -- only zero is a negative number that is not below zero
        have hzero : (n : ℚ) * 10 ^ exponent = 0 := by
          have hminus := value_of_negative hsign
          have hmagnitude : (0 : ℚ) ≤ d.coefficient * 10 ^ d.exponent := by positivity
          linarith
        rw [hzero]
        refine value_eq_zero.mpr ?_
        exact_mod_cast (mul_eq_zero.mp hzero).resolve_right (zpow_ne_zero exponent hten)

theorem precision_lt_length_rescale (hpos : d.coefficient ≠ 0) :
    precision < (d.rescale exponent).length ↔
      ((10 : ℚ) ^ precision - 1 / 2) * 10 ^ exponent ≤ d.coefficient * 10 ^ d.exponent := by
  have hten : (10 : ℚ) ≠ 0 := by norm_num
  have hdigits : precision < (d.rescale exponent).length ↔
      10 ^ precision ≤ (d.rescale exponent).coefficient := by
    refine not_iff_not.mp ?_
    rw [not_lt, not_le]
    exact length_le_iff (by decide)
  have hunit : (0 : ℚ) < 10 ^ exponent := zpow_pos (by norm_num) _
  rw [hdigits]
  unfold rescale
  rw [if_neg hpos]
  split
  · next hpad =>
    -- a whole number of units, and no such number is within half a unit below
    have hsplit : d.exponent = ((d.exponent - exponent).toNat : Int) + exponent := by omega
    have hwhole : (d.coefficient : ℚ) * 10 ^ d.exponent =
        (d.coefficient * 10 ^ (d.exponent - exponent).toNat : Nat) * 10 ^ exponent := by
      conv_lhs => rw [hsplit, zpow_add₀ hten, zpow_natCast, ← mul_assoc]
      push_cast
      rfl
    rw [hwhole, mul_le_mul_iff_left₀ hunit]
    show _ ≤ d.coefficient * 10 ^ (d.exponent - exponent).toNat ↔ _
    generalize d.coefficient * 10 ^ (d.exponent - exponent).toNat = n
    constructor
    · intro h
      have hcast : (10 : ℚ) ^ precision ≤ n := by exact_mod_cast h
      linarith
    · intro h
      by_contra hlt
      have hcast : (n : ℚ) + 1 ≤ 10 ^ precision := by exact_mod_cast not_le.mp hlt
      linarith
  · next hround =>
    have hsplit : exponent = ((exponent - d.exponent).toNat : Int) + d.exponent := by omega
    have hpower : (0 : ℚ) < 10 ^ d.exponent := zpow_pos (by norm_num) _
    have hscaled : ((10 : ℚ) ^ precision - 1 / 2) * 10 ^ exponent =
        ((10 : ℚ) ^ precision - 1 / 2) * 10 ^ (exponent - d.exponent).toNat * 10 ^ d.exponent := by
      conv_lhs => rw [hsplit, zpow_add₀ hten, zpow_natCast, ← mul_assoc]
    rw [hscaled, mul_le_mul_iff_left₀ hpower]
    show _ ≤ roundHalfEven d.coefficient _ ↔ _
    rw [le_roundHalfEven_iff (by decide) (by decide)]
    generalize (exponent - d.exponent).toNat = drop
    have hdouble : ((2 * 10 ^ precision - 1 : Nat) : ℚ) = 2 * 10 ^ precision - 1 := by
      norm_num [precision]
    rw [← Nat.cast_le (α := ℚ)]
    push_cast [hdouble]
    constructor <;> intro h <;> linarith

variable (hlow : exponentTiny ≤ exponent) (hhigh : exponent ≤ exponentTop)
include hlow hhigh

theorem quantize_eq_some : d.quantize exponent = some q ↔
    ¬ (d.coefficient ≠ 0 ∧ precision < (d.rescale exponent).length) ∧ d.rescale exponent = q := by
  have htop : exponentTop + precision = exponentMax + 1 := by decide
  have hprecision : 0 < precision := by decide
  have hkept : (d.rescale exponent).length ≤ precision →
      (d.rescale exponent).fixed = some (d.rescale exponent) :=
    fun hlength => fixed_self hlength (by simpa using hlow) (by simpa using hhigh)
  unfold quantize
  rw [if_neg (by omega)]
  split
  · next hzero =>
    have hlength : (d.rescale exponent).length ≤ precision := by
      unfold rescale
      rw [if_pos hzero]
      exact (length_le_iff (by decide)).mpr (Nat.pow_pos (by decide))
    rw [hkept hlength]
    simp [hzero]
  · next hpos =>
    by_cases hlength : (d.rescale exponent).length ≤ precision
    · have hmany := (precision_lt_length_rescale hpos).not.mp hlength.not_gt
      have hadjusted : d.adjusted < precision + exponent := by
        refine (adjusted_lt_iff hpos).mpr ((not_le.mp hmany).trans ?_)
        rw [zpow_add₀ (by norm_num), zpow_natCast]
        exact mul_lt_mul_of_pos_right (by linarith) (zpow_pos (by norm_num) _)
      have hrescaled : (d.rescale exponent).adjusted ≤ exponentMax := by
        unfold adjusted
        rw [rescale_exponent]
        omega
      rw [if_neg (by omega), if_neg (by omega), if_neg (by omega), hkept hlength]
      simp [hlength]
    · have hmany := not_le.mp hlength
      rw [if_pos (Or.inr hmany)]
      simp [hpos, hmany]

/-- Quantize raises exactly from half a unit below the first number with too many digits. -/
theorem quantize_eq_none (hnonneg : 0 ≤ d.value) : d.quantize exponent = none ↔
    ((10 : ℚ) ^ precision - 1 / 2) * 10 ^ exponent ≤ d.value := by
  have hsome : d.quantize exponent = none ↔
      d.coefficient ≠ 0 ∧ precision < (d.rescale exponent).length := by
    rw [Option.eq_none_iff_forall_ne_some]
    simp only [ne_eq, quantize_eq_some hlow hhigh]
    constructor
    · intro h
      by_contra hfits
      exact h _ ⟨hfits, rfl⟩
    · rintro hmany q ⟨hfits, -⟩
      exact hfits hmany
  rw [hsome]
  by_cases hzero : d.coefficient = 0
  · have hunit : (0 : ℚ) < 10 ^ exponent := zpow_pos (by norm_num) _
    have hedge : (0 : ℚ) < ((10 : ℚ) ^ precision - 1 / 2) * 10 ^ exponent :=
      mul_pos (by norm_num [precision]) hunit
    rw [value_eq_zero.mpr hzero]
    simp only [hzero, ne_eq, not_true_eq_false, false_and, false_iff, not_le]
    exact hedge
  · rw [precision_lt_length_rescale hzero, value_of_nonneg hnonneg]
    exact and_iff_right hzero

end Quantize

end PyDecimal

end Domain
