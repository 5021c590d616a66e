-- SUMMARY: Products and sums of decimals in the default context: a result with few digits is exact, and one that is rounded does not fall below a power of ten.
import SiraSeil.Domain.Decimals
import Mathlib.Algebra.Order.Field.Power

/-!
# Decimal arithmetic

`Decimal.__mul__` and `Decimal.__add__` compute the exact result and round it to the
digits of the context. Rounding keeps what has few enough digits, and rounds to the
grid of one exponent otherwise, so a number at or above a power of ten stays there.
-/

namespace Domain

namespace PyDecimal

/-- `Decimal(n)` -/
def ofNat (n : Nat) : PyDecimal :=
  { coefficient := n }

/-- `_fix` -/
def fixed (d : PyDecimal) : Option PyDecimal :=
  if d.coefficient = 0 then some ⟨d.negative, 0, min (max d.exponent exponentTiny) exponentMax⟩
  else d.fix

def product (a b : PyDecimal) : PyDecimal :=
  ⟨a.negative != b.negative, a.coefficient * b.coefficient, a.exponent + b.exponent⟩

/-- `__mul__`; none where it raises `Overflow` -/
def mul (a b : PyDecimal) : Option PyDecimal :=
  (a.product b).fixed

/-- The digits at an exponent that is not greater, with the sign -/
def scaled (d : PyDecimal) (exponent : Int) : Int :=
  (if d.negative then -1 else 1) * d.coefficient * 10 ^ (d.exponent - exponent).toNat

/-- An integer at an exponent; zero takes the given sign. -/
def ofScaled (total exponent : Int) (negative : Bool) : PyDecimal :=
  ⟨if total = 0 then negative else decide (total < 0), total.natAbs, exponent⟩

def sum (a b : PyDecimal) : PyDecimal :=
  let exponent := min a.exponent b.exponent
  ofScaled (a.scaled exponent + b.scaled exponent) exponent (a.negative && b.negative)

/-- `__add__`; none where it raises `Overflow` -/
def add (a b : PyDecimal) : Option PyDecimal :=
  (a.sum b).fixed

/-! ## Exact results -/

@[simp] theorem ofNat_value (n : Nat) : (ofNat n).value = n := by
  simp [ofNat, value]

theorem product_value (a b : PyDecimal) : (a.product b).value = a.value * b.value := by
  have hten : (10 : ℚ) ≠ 0 := by norm_num
  unfold product value
  simp only [zpow_add₀ hten, Nat.cast_mul]
  cases a.negative <;> cases b.negative <;> simp <;> ring

theorem scaled_value (d : PyDecimal) {exponent : Int} (h : exponent ≤ d.exponent) :
    (d.scaled exponent : ℚ) * 10 ^ exponent = d.value := by
  have hpower : (10 : ℚ) ^ (d.exponent - exponent).toNat * 10 ^ exponent = 10 ^ d.exponent := by
    rw [← zpow_natCast, ← zpow_add₀ (by norm_num)]
    congr 1
    omega
  unfold scaled value
  push_cast
  rw [mul_assoc, hpower]

theorem ofScaled_value (total exponent : Int) (negative : Bool) :
    (ofScaled total exponent negative).value = total * 10 ^ exponent := by
  unfold ofScaled value
  refine congrArg (· * _) ?_
  rcases lt_trichotomy total 0 with hneg | rfl | hpos
  · simp only [hneg.ne, hneg, if_false, decide_true, if_true, Nat.cast_natAbs, abs_of_neg hneg]
    simp
  · simp
  · simp only [hpos.ne', hpos.not_gt, if_false, decide_false, Nat.cast_natAbs, abs_of_pos hpos]
    simp

theorem sum_value (a b : PyDecimal) : (a.sum b).value = a.value + b.value := by
  rw [← a.scaled_value (min_le_left a.exponent b.exponent),
    ← b.scaled_value (min_le_right a.exponent b.exponent), ← add_mul, ← Int.cast_add]
  exact ofScaled_value _ _ _

/-! ## Rounding to a grid -/

theorem roundHalfEven_of_dvd {coefficient drop : Nat} (h : 10 ^ drop ∣ coefficient) :
    roundHalfEven coefficient drop = coefficient / 10 ^ drop := by
  have hpos : 0 < 10 ^ drop := Nat.pow_pos (by decide)
  have hrest : coefficient % 10 ^ drop = 0 := Nat.mod_eq_zero_of_dvd h
  unfold roundHalfEven
  simp only [hrest]
  exact if_neg (by omega)

theorem le_roundHalfEven (coefficient drop : Nat) :
    coefficient / 10 ^ drop ≤ roundHalfEven coefficient drop := by
  unfold roundHalfEven
  simp only
  split <;> omega

theorem carry_value {coefficient : Nat} {exponent : Int} (h : coefficient ≤ 10 ^ precision) :
    ((carry coefficient exponent).1 : ℚ) * 10 ^ (carry coefficient exponent).2 =
      coefficient * 10 ^ exponent := by
  unfold carry
  split
  · next hfull =>
    obtain rfl := le_antisymm h hfull
    have hten : (10 : ℚ) ≠ 0 := by norm_num
    simp only [precision, zpow_add₀ hten, zpow_one]
    norm_num
    ring
  · rfl

/-- The exponent that a number is rounded to -/
def grid (d : PyDecimal) : Int :=
  max d.exponent d.exponentLeast

/-- How many digits rounding drops -/
def dropped (d : PyDecimal) : Nat :=
  (d.grid - d.exponent).toNat

theorem exponent_add_dropped (d : PyDecimal) : d.exponent + d.dropped = d.grid := by
  unfold dropped grid
  omega

theorem roundHalfEven_le_precision (d : PyDecimal) :
    roundHalfEven d.coefficient (d.exponentLeast - d.exponent).toNat ≤ 10 ^ precision := by
  refine roundHalfEven_le (d.lt_pow_length.trans_le (Nat.pow_le_pow_right (by decide) ?_))
  unfold exponentLeast
  omega

theorem fix_eq_some {d r : PyDecimal} (h : d.fix = some r) :
    r.negative = d.negative ∧
      (r.coefficient : ℚ) * 10 ^ r.exponent = roundHalfEven d.coefficient d.dropped * 10 ^ d.grid := by
  unfold fix at h
  split at h
  · cases h
  · split at h
    · next hround =>
      have hgrid : d.grid = d.exponentLeast := max_eq_right hround.le
      split at h
      · cases h
      · cases h
        refine ⟨rfl, ?_⟩
        rw [dropped, hgrid]
        exact carry_value d.roundHalfEven_le_precision
    · next hkeep =>
      cases h
      have hgrid : d.grid = d.exponent := max_eq_left (not_lt.mp hkeep)
      have hdropped : d.dropped = 0 := by simp [dropped, hgrid]
      rw [hdropped, hgrid, roundHalfEven_of_dvd (by simp), pow_zero, Nat.div_one]
      exact ⟨rfl, rfl⟩

theorem exists_fix {d : PyDecimal} (h : d.length + d.exponent - precision < exponentTop) :
    ∃ r, d.fix = some r := by
  have htiny : exponentTiny < exponentTop := by decide
  have hcarry : (d.roundTo d.exponentLeast).exponent ≤ d.exponentLeast + 1 := by
    unfold roundTo carry
    simp only
    split <;> omega
  unfold fix
  rw [if_neg (by omega)]
  split
  · exact ⟨_, if_neg (by unfold exponentLeast at *; omega)⟩
  · exact ⟨d, rfl⟩

/-! ## What rounding keeps -/

section Kept

variable {d r : PyDecimal}

theorem pow_pred_length_le (hpos : d.coefficient ≠ 0) : 10 ^ (d.length - 1) ≤ d.coefficient := by
  by_cases hone : d.length - 1 = 0
  · rw [hone]
    omega
  · by_contra hlt
    have hlength : d.length ≤ d.length - 1 :=
      (length_le_iff (Nat.pos_of_ne_zero hone)).mpr (not_le.mp hlt)
    omega

/-- The digits of a small multiple of a power of ten end no lower than that power, and
    no more of them stand above it than the context has. -/
theorem digits_of_multiple {n : Nat} {k : Int} (hpos : d.coefficient ≠ 0)
    (hvalue : (d.coefficient : ℚ) * 10 ^ d.exponent = n * 10 ^ k) (hn : n < 10 ^ precision) :
    d.length + d.exponent - precision ≤ k ∧
      10 ^ (max d.exponent k - d.exponent).toNat ∣ d.coefficient := by
  have hten : (10 : ℚ) ≠ 0 := by norm_num
  rcases le_total k d.exponent with hk | hk
  · rw [max_eq_left hk, Int.sub_self]
    refine ⟨?_, one_dvd _⟩
    -- the zeros behind the digits count as digits of the multiple
    have hnat : d.coefficient * 10 ^ (d.exponent - k).toNat = n := by
      have hsplit : d.exponent = ((d.exponent - k).toNat : Int) + k := by omega
      rw [hsplit, zpow_add₀ hten, zpow_natCast, ← mul_assoc] at hvalue
      exact_mod_cast mul_right_cancel₀ (zpow_ne_zero k hten) hvalue
    rw [← hnat] at hn
    have hzeros : (d.exponent - k).toNat < precision :=
      (Nat.pow_lt_pow_iff_right (by decide)).mp
        ((Nat.le_mul_of_pos_left _ (Nat.pos_of_ne_zero hpos)).trans_lt hn)
    have hlength : d.length ≤ precision - (d.exponent - k).toNat := by
      refine (length_le_iff (by omega)).mpr (Nat.lt_of_mul_lt_mul_right
        (a := 10 ^ (d.exponent - k).toNat) ?_)
      rwa [← pow_add, Nat.sub_add_cancel hzeros.le]
    omega
  · have hnat : d.coefficient = n * 10 ^ (k - d.exponent).toNat := by
      have hsplit : k = ((k - d.exponent).toNat : Int) + d.exponent := by omega
      rw [hsplit, zpow_add₀ hten, zpow_natCast, ← mul_assoc] at hvalue
      exact_mod_cast mul_right_cancel₀ (zpow_ne_zero d.exponent hten) hvalue
    have hprecision : 0 < precision := by decide
    have hlength : d.length ≤ precision + (k - d.exponent).toNat := by
      refine (length_le_iff (by omega)).mpr ?_
      rw [hnat, pow_add]
      exact Nat.mul_lt_mul_of_pos_right hn (Nat.pow_pos (by decide))
    rw [max_eq_right hk]
    exact ⟨by omega, hnat ▸ Nat.dvd_mul_left _ _⟩

theorem fix_exact {n : Nat} {k : Int} (hpos : d.coefficient ≠ 0)
    (hvalue : (d.coefficient : ℚ) * 10 ^ d.exponent = n * 10 ^ k) (hn : n < 10 ^ precision)
    (hlow : exponentTiny ≤ k) (hhigh : k < exponentTop) :
    ∃ r, d.fix = some r ∧ r.value = d.value := by
  obtain ⟨hlength, hzeros⟩ := digits_of_multiple hpos hvalue hn
  obtain ⟨r, hr⟩ := exists_fix (lt_of_le_of_lt hlength hhigh)
  refine ⟨r, hr, ?_⟩
  have hgrid : d.grid ≤ max d.exponent k := by
    unfold grid exponentLeast
    omega
  have hdvd : 10 ^ d.dropped ∣ d.coefficient :=
    (Nat.pow_dvd_pow 10 (Int.toNat_le_toNat (Int.sub_le_sub_right hgrid _))).trans hzeros
  obtain ⟨hsign, hmagnitude⟩ := fix_eq_some hr
  rw [roundHalfEven_of_dvd hdvd, ← d.exponent_add_dropped] at hmagnitude
  have hkept : ((d.coefficient / 10 ^ d.dropped : Nat) : ℚ) * 10 ^ d.dropped = d.coefficient := by
    exact_mod_cast Nat.div_mul_cancel hdvd
  rw [add_comm, zpow_add₀ (by norm_num), zpow_natCast, ← mul_assoc, hkept] at hmagnitude
  unfold value
  rw [mul_assoc, mul_assoc, hsign, hmagnitude]

theorem pow_le_coefficient {k : Int} (hk : d.exponent ≤ k)
    (hle : (10 : ℚ) ^ k ≤ d.coefficient * 10 ^ d.exponent) :
    10 ^ (k - d.exponent).toNat ≤ d.coefficient := by
  have hten : (10 : ℚ) ≠ 0 := by norm_num
  have hsplit : k = ((k - d.exponent).toNat : Int) + d.exponent := by omega
  rw [hsplit, zpow_add₀ hten, zpow_natCast] at hle
  exact_mod_cast le_of_mul_le_mul_right hle (zpow_pos (by norm_num) _)

theorem pow_dropped_le {k : Int} (hpos : d.coefficient ≠ 0) (hlow : exponentTiny ≤ k)
    (hle : (10 : ℚ) ^ k ≤ d.coefficient * 10 ^ d.exponent) : 10 ^ d.dropped ≤ d.coefficient := by
  have hprecision : 0 < precision := by decide
  by_cases hlong : d.dropped ≤ d.length - 1
  · exact (Nat.pow_le_pow_right (by decide) hlong).trans (pow_pred_length_le hpos)
  · -- the least exponent is what drops the digits
    have hgrid : d.grid ≤ k := by
      unfold dropped grid exponentLeast at *
      omega
    have hexponent : d.exponent ≤ d.grid := le_max_left _ _
    exact (Nat.pow_le_pow_right (by decide) (Int.toNat_le_toNat (Int.sub_le_sub_right hgrid _))).trans
      (pow_le_coefficient (hexponent.trans hgrid) hle)

theorem fix_large {k : Int} (hpos : d.coefficient ≠ 0) (hlow : exponentTiny ≤ k)
    (hle : (10 : ℚ) ^ k ≤ d.coefficient * 10 ^ d.exponent) (h : d.fix = some r) :
    (10 : ℚ) ^ k ≤ r.coefficient * 10 ^ r.exponent := by
  rw [(fix_eq_some h).2]
  have hten : (0 : ℚ) < 10 := by norm_num
  have hdrop : 0 < 10 ^ d.dropped := Nat.pow_pos (by decide)
  suffices hkept : 10 ^ (k - d.grid).toNat ≤ d.coefficient / 10 ^ d.dropped by
    have hrounded : (10 : ℚ) ^ (k - d.grid).toNat ≤ roundHalfEven d.coefficient d.dropped := by
      exact_mod_cast hkept.trans (le_roundHalfEven _ _)
    calc (10 : ℚ) ^ k ≤ 10 ^ (((k - d.grid).toNat : Int) + d.grid) :=
          zpow_le_zpow_right₀ (by norm_num) (by omega)
      _ = 10 ^ (k - d.grid).toNat * 10 ^ d.grid := by rw [zpow_add₀ hten.ne', zpow_natCast]
      _ ≤ _ := mul_le_mul_of_nonneg_right hrounded (zpow_pos hten _).le
  rw [Nat.le_div_iff_mul_le hdrop, ← pow_add]
  rcases le_total k d.grid with hk | hk
  · rw [Int.toNat_of_nonpos (Int.sub_nonpos_of_le hk), Nat.zero_add]
    exact pow_dropped_le hpos hlow hle
  · have hexponent : d.exponent ≤ d.grid := le_max_left _ _
    have hdigits : (k - d.grid).toNat + d.dropped = (k - d.exponent).toNat := by
      unfold dropped
      omega
    rw [hdigits]
    exact pow_le_coefficient (hexponent.trans hk) hle

end Kept

/-! ## Results of the operations -/

section Results

variable {d r : PyDecimal}

theorem value_of_positive (h : d.negative = false) : d.value = d.coefficient * 10 ^ d.exponent := by
  simp [value, h]

theorem value_of_negative (h : d.negative = true) :
    d.value = -(d.coefficient * 10 ^ d.exponent) := by
  simp [value, h]

theorem value_of_nonneg (h : 0 ≤ d.value) : d.value = d.coefficient * 10 ^ d.exponent := by
  have hmagnitude : (0 : ℚ) ≤ d.coefficient * 10 ^ d.exponent := by positivity
  cases hsign : d.negative with
  | false => exact value_of_positive hsign
  | true =>
    have hminus := value_of_negative hsign
    linarith

theorem fixed_exact {n : Nat} {k : Int} (hvalue : d.value = n * 10 ^ k) (hn : n < 10 ^ precision)
    (hlow : exponentTiny ≤ k) (hhigh : k < exponentTop) :
    ∃ r, d.fixed = some r ∧ r.value = d.value := by
  unfold fixed
  split
  · next hzero =>
    refine ⟨_, rfl, ?_⟩
    rw [value_eq_zero.mpr hzero]
    exact value_eq_zero.mpr rfl
  · next hpos =>
    have hnonneg : 0 ≤ d.value := hvalue ▸ by positivity
    exact fix_exact hpos ((value_of_nonneg hnonneg).symm.trans hvalue) hn hlow hhigh

theorem fixed_large {k : Int} (hlow : exponentTiny ≤ k) (hle : (10 : ℚ) ^ k ≤ d.value)
    (h : d.fixed = some r) : (10 : ℚ) ^ k ≤ r.value := by
  have hpower : (0 : ℚ) < 10 ^ k := by positivity
  have hvalue : 0 < d.value := hpower.trans_le hle
  have hpos : d.coefficient ≠ 0 := fun hzero => hvalue.ne' (value_eq_zero.mpr hzero)
  unfold fixed at h
  rw [if_neg hpos] at h
  rw [value_of_nonneg hvalue.le] at hle
  have hlarge := fix_large hpos hlow hle h
  have hsign : d.negative = false := by
    by_contra hnegative
    have hminus := value_of_negative (Bool.not_eq_false _ ▸ hnegative)
    linarith
  rw [value_of_positive ((fix_eq_some h).1.trans hsign)]
  exact hlarge

end Results

end PyDecimal

end Domain
