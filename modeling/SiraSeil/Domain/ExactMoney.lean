-- SUMMARY: Money on decimals, as the class computes it: an amount is held exactly or refused, up to half a cent below 10^26, from where an arithmetic error escapes.
import SiraSeil.Domain.DecimalText
import SiraSeil.Domain.Money
import SiraSeil.Library.Dict
import SiraSeil.Library.Raising
import Mathlib.Data.Finset.Insert
import Mathlib.Data.Finset.Dedup

/-!
# Exact money

`_coerce_decimal` reads an amount, compares it with its two-place quantization and keeps
the normalized decimal. Errors of reading are turned into validation errors; the error
that `quantize` raises on an amount of more than 28 digits is not.
-/

namespace Domain

open PyDecimal

/-- What an amount is given as -/
inductive MoneyInput
  | decimal (d : PyNumber)
  | text (s : String)
  | int (n : Int)
  | bool (b : Bool)
  | float

namespace MoneyInput

/-- `value if isinstance(value, Decimal) else Decimal(value)`, of what is not refused before;
    none where it raises `InvalidOperation` -/
def read (unicode : Unicode) : MoneyInput → Option PyNumber
  | .decimal d => some d
  | .text s => PyNumber.ofText unicode s
  | .int n => some (.finite ⟨decide (n < 0), n.natAbs, 0⟩)
  | .bool _ => none
  | .float => none

/-- The number that is given, if it is one -/
def number (unicode : Unicode) (given : MoneyInput) : Option ℚ :=
  match given.read unicode with
  | some (.finite d) => some d.value
  | _ => none

end MoneyInput

/-! ## Coercion -/

/-- `_coerce_decimal` of a finite decimal -/
def coerceFinite (d : PyDecimal) : Py PyDecimal :=
  if d.value < 0 then .error (.domainValidation "money amount cannot be negative")
  else match d.quantize (-2) with
    | none => .error .invalidOperation
    | some q =>
      if q.value ≠ d.value then
        .error (.domainValidation "money amount must have at most two decimal places")
      else match d.rounded with
        | some amount => .ok amount
        | none => .error .invalidOperation -- an overflow, which no amount with two places causes

/-- `_coerce_decimal` -/
def coerceDecimal (unicode : Unicode) (given : MoneyInput) : Py PyDecimal :=
  match given with
  | .float => .error (.domainValidation "binary floating point is prohibited for money")
  | .bool _ =>
    .error (.domainValidation "money must be constructed from Decimal, string, or int")
  | given =>
    match given.read unicode with
    | none => .error (.domainValidation "invalid decimal money amount")
    | some (.finite d) => coerceFinite d
    | some _ => .error (.domainValidation "money amount must be finite")

/-- A normalized amount of whole cents, of at most 28 digits -/
structure Held (d : PyDecimal) : Prop where
  normal : d.Normal
  positive : d.negative = false
  cents : ∃ n : Nat, n < 10 ^ precision ∧ d.value = n * 10 ^ (-2 : Int)

/-- The least number that two places of 28 digits do not hold, half a cent below `10^26` -/
def edge : ℚ :=
  10 ^ 26 - 1 / 200

theorem edge_eq : edge = ((10 : ℚ) ^ precision - 1 / 2) * 10 ^ (-2 : Int) := by
  norm_num [edge, precision]

section Coercion

variable {d r : PyDecimal}

theorem rounded_exact {n : Nat} (hn : n < 10 ^ precision) (hvalue : d.value = n * 10 ^ (-2 : Int)) :
    ∃ r, d.rounded = some r ∧ r.value = d.value ∧ r.negative = false := by
  have hnonneg : 0 ≤ d.value := hvalue ▸ by positivity
  unfold rounded
  split
  · next hzero => exact ⟨_, rfl, by rw [value_eq_zero.mpr hzero]; exact value_eq_zero.mpr rfl, rfl⟩
  · next hpos =>
    have hsign : d.negative = false := by
      by_contra hnegative
      have hminus := value_of_negative (Bool.not_eq_false _ ▸ hnegative)
      have hpositive : (0 : ℚ) < d.coefficient * 10 ^ d.exponent :=
        mul_pos (by exact_mod_cast Nat.pos_of_ne_zero hpos) (zpow_pos (by norm_num) _)
      linarith
    obtain ⟨fixed, hfix, hfixed⟩ := fix_exact hpos ((value_of_nonneg hnonneg).symm.trans hvalue) hn
      (by decide) (by decide)
    obtain ⟨r, hr⟩ : ∃ r, d.normalize = some r := by simp [PyDecimal.normalize, hfix]
    obtain ⟨_, hsame, hrvalue, hrsign⟩ := normalize_eq_some hr
    obtain rfl := Option.some.inj (hfix.symm.trans hsame)
    exact ⟨r, hr, hrvalue.trans hfixed, hrsign.trans ((fix_eq_some hfix).1.trans hsign)⟩

theorem cents_of_quantize {q : PyDecimal} (hnonneg : 0 ≤ d.value) (h : d.quantize (-2) = some q)
    (hvalue : q.value = d.value) : ∃ n : Nat, n < 10 ^ precision ∧ d.value = n * 10 ^ (-2 : Int) := by
  obtain ⟨hfits, rfl⟩ := (quantize_eq_some (by decide) (by decide)).mp h
  by_cases hzero : d.coefficient = 0
  · exact ⟨0, Nat.pow_pos (by decide), by simpa using value_eq_zero.mpr hzero⟩
  · have hlength : (d.rescale (-2)).length ≤ precision := not_lt.mp (fun hmany => hfits ⟨hzero, hmany⟩)
    refine ⟨(d.rescale (-2)).coefficient, (length_le_iff (by decide)).mp hlength, ?_⟩
    rw [← hvalue, value_of_nonneg (hvalue ▸ hnonneg), rescale_exponent]

theorem exists_quantize (hnonneg : 0 ≤ d.value) (hsmall : d.value < edge) :
    d.quantize (-2) = some (d.rescale (-2)) := by
  have hsome : d.quantize (-2) ≠ none := by
    rw [ne_eq, quantize_eq_none (by decide) (by decide) hnonneg, ← edge_eq]
    exact not_le.mpr hsmall
  obtain ⟨q, hq⟩ := Option.ne_none_iff_exists'.mp hsome
  rw [hq, ((quantize_eq_some (by decide) (by decide)).mp hq).2]

theorem cents_lt_edge {n : Nat} (hn : n < 10 ^ precision) : (n : ℚ) * 10 ^ (-2 : Int) < edge := by
  have hcast : (n : ℚ) + 1 ≤ 10 ^ precision := by exact_mod_cast hn
  have hunit : (0 : ℚ) < 10 ^ (-2 : Int) := zpow_pos (by norm_num) _
  rw [edge_eq]
  exact mul_lt_mul_of_pos_right (by linarith) hunit

theorem cents_lt_pow {n k : Nat} : (n : ℚ) * 10 ^ (-2 : Int) < 10 ^ (k : Int) ↔ n < 10 ^ (k + 2) := by
  have hunit : (0 : ℚ) < 10 ^ (-2 : Int) := zpow_pos (by norm_num) _
  have hsplit : (10 : ℚ) ^ (k : Int) = (10 ^ (k + 2) : Nat) * 10 ^ (-2 : Int) := by
    push_cast
    rw [← zpow_natCast, ← zpow_add₀ (by norm_num)]
    simp
  rw [hsplit, mul_lt_mul_iff_left₀ hunit, Nat.cast_lt]

theorem coerceFinite_eq_ok : coerceFinite d = .ok r ↔ Held r ∧ r.value = d.value := by
  constructor
  · intro h
    unfold coerceFinite at h
    split at h
    · cases h
    · next hnonneg =>
      split at h
      · cases h
      · next q hq =>
        split at h
        · cases h
        · next hvalue =>
          have hvalue := not_not.mp hvalue
          obtain ⟨n, hn, hcents⟩ := cents_of_quantize (not_lt.mp hnonneg) hq hvalue
          obtain ⟨r', hr, hkept, hsign⟩ := rounded_exact hn hcents
          rw [hr] at h
          cases h
          exact ⟨⟨normal_of_rounded hr, hsign, n, hn, hkept.trans hcents⟩, hkept⟩
  · rintro ⟨hheld, hvalue⟩
    obtain ⟨n, hn, hcents⟩ := hheld.cents
    have hcents := hvalue.symm.trans hcents
    have hnonneg : 0 ≤ d.value := hcents ▸ by positivity
    obtain ⟨r', hr, hkept, hsign⟩ := rounded_exact hn hcents
    have hsame : r' = r := (normal_of_rounded hr).eq_of_value hheld.normal
      (hsign.trans hheld.positive.symm) (hkept.trans hvalue.symm)
    have hquantize := exists_quantize hnonneg (hcents ▸ cents_lt_edge hn)
    simp [coerceFinite, hnonneg.not_gt, hquantize, rescale_value hcents, hr, hsame]

theorem coerceFinite_invalid : coerceFinite d = .error .invalidOperation ↔ edge ≤ d.value := by
  have hpositive : 0 < edge := by norm_num [edge]
  unfold coerceFinite
  split
  · next hnegative => simp [(hnegative.trans hpositive)]
  · next hnonneg =>
    split
    · next hnone =>
      have hlarge := (quantize_eq_none (by decide) (by decide) (not_lt.mp hnonneg)).mp hnone
      simpa [edge_eq] using hlarge
    · next q hq =>
      have hsmall : ¬ edge ≤ d.value := by
        rw [edge_eq, ← quantize_eq_none (by decide) (by decide) (not_lt.mp hnonneg), hq]
        simp
      split
      · simp [hsmall]
      · next hvalue =>
        obtain ⟨n, hn, hcents⟩ := cents_of_quantize (not_lt.mp hnonneg) hq (not_not.mp hvalue)
        obtain ⟨r', hr, -⟩ := rounded_exact hn hcents
        simp [hr, hsmall]

theorem coerceFinite_error {e : PyError} (h : coerceFinite d = .error e) :
    (∃ message, e = .domainValidation message) ∨ e = .invalidOperation := by
  unfold coerceFinite at h
  split at h
  · cases h
    exact .inl ⟨_, rfl⟩
  · split at h
    · cases h
      exact .inr rfl
    · split at h
      · cases h
        exact .inl ⟨_, rfl⟩
      · split at h
        · cases h
        · cases h
          exact .inr rfl

end Coercion

section MoneyInput

variable {unicode : Unicode} {given : MoneyInput} {r : PyDecimal}

theorem coerceDecimal_cases (unicode : Unicode) (given : MoneyInput) :
    (∃ d, given.number unicode = some d.value ∧ coerceDecimal unicode given = coerceFinite d) ∨
      (given.number unicode = none ∧
        ∃ message, coerceDecimal unicode given = .error (.domainValidation message)) := by
  have hread : ∀ g : MoneyInput, coerceDecimal unicode g =
        (match g.read unicode with
        | none => .error (.domainValidation "invalid decimal money amount")
        | some (.finite d) => coerceFinite d
        | some _ => .error (.domainValidation "money amount must be finite")) →
      (∃ d, g.number unicode = some d.value ∧ coerceDecimal unicode g = coerceFinite d) ∨
        (g.number unicode = none ∧
          ∃ message, coerceDecimal unicode g = .error (.domainValidation message)) := by
    intro g hg
    unfold MoneyInput.number
    rw [hg]
    cases g.read unicode with
    | none => simp
    | some d =>
      cases d with
      | finite d => exact .inl ⟨d, rfl, rfl⟩
      | infinity negative => simp
      | nan signaling => simp
  cases given with
  | decimal d => exact hread _ rfl
  | text s => exact hread _ rfl
  | int n => exact hread _ rfl
  | bool b => exact .inr ⟨rfl, _, rfl⟩
  | float => exact .inr ⟨rfl, _, rfl⟩

theorem coerceDecimal_held (h : coerceDecimal unicode given = .ok r) : Held r := by
  rcases coerceDecimal_cases unicode given with ⟨d, -, hd⟩ | ⟨-, message, herror⟩
  · exact (coerceFinite_eq_ok.mp (hd.symm.trans h)).1
  · rw [herror] at h
    cases h

end MoneyInput

/-! ## Money -/

/-- `Money`, with the decimal it holds -/
@[ext]
structure DecimalMoney where
  amount : PyDecimal
  currency : String
  held : Held amount
  currency_ok : isCurrency currency = true

/-- What `from_dict` raises; a currency that is no text has no `upper`. -/
inductive FromDictError
  | raised (e : PyError)
  | attribute (name : String)

namespace DecimalMoney

variable {unicode : Unicode}

/-- `Money(amount, currency)` -/
def make (unicode : Unicode) (given : MoneyInput) (currency : String) : Py DecimalMoney :=
  match h : coerceDecimal unicode given with
  | .error e => .error e
  | .ok amount =>
    if hcurrency : isCurrency (unicode.upperText currency) = true then
      .ok ⟨amount, unicode.upperText currency, coerceDecimal_held h, hcurrency⟩
    else .error (.domainValidation "currency must be a three-letter ISO code")

/-- `_require_currency` -/
def requireCurrency (m other : DecimalMoney) : Py Unit :=
  if m.currency = other.currency then .ok ()
  else .error (.domainValidation "money values use different currencies")

/-- `__add__` -/
def add (unicode : Unicode) (m other : DecimalMoney) : Py DecimalMoney := do
  m.requireCurrency other
  match m.amount.add other.amount with
  | none => throw .invalidOperation -- an overflow, which two amounts do not cause
  | some amount => make unicode (.decimal (.finite amount)) m.currency

/-- `to_dict` -/
def toDict (m : DecimalMoney) : Dict String MoneyInput :=
  Dict.ofList [("amount", .text (String.ofList m.amount.formatTwo)), ("currency", .text m.currency)]

/-- `from_dict` -/
def fromDict (unicode : Unicode) (value : Dict String MoneyInput) : Except FromDictError DecimalMoney :=
  if (value.items.map Prod.fst).toFinset ≠ {"amount", "currency"} then
    .error (.raised (.domainValidation "money requires exactly amount and currency"))
  else match value.get? "amount", value.get? "currency" with
    | some amount, some (.text currency) => (make unicode amount currency).mapError .raised
    | some amount, some _ =>
      match coerceDecimal unicode amount with
      | .error e => .error (.raised e)
      | .ok _ => .error (.attribute "upper")
    | none, _ => .error (.raised (.key "amount"))
    | some _, none => .error (.raised (.key "currency"))

/-! ## Construction -/

/-- The outcome holds the given number, or is a `DomainValidationError`. -/
def ExactOrRefused (number : Option ℚ) (outcome : Py DecimalMoney) : Prop :=
  (∃ m, outcome = .ok m ∧ number = some m.amount.value) ∨
    ∃ message, outcome = .error (.domainValidation message)

theorem make_of_ok {given : MoneyInput} {amount : PyDecimal} (h : coerceDecimal unicode given = .ok amount)
    (currency : String) :
    (∃ m, make unicode given currency = .ok m ∧ m.amount = amount ∧
        m.currency = unicode.upperText currency) ∨
      (isCurrency (unicode.upperText currency) = false ∧
        ∃ message, make unicode given currency = .error (.domainValidation message)) := by
  unfold make
  split
  · next e herror =>
    rw [h] at herror
    cases herror
  · next amount' hamount =>
    obtain rfl := Except.ok.inj (h.symm.trans hamount)
    split
    · exact .inl ⟨_, rfl, rfl, rfl⟩
    · next hcurrency => exact .inr ⟨Bool.not_eq_true _ ▸ hcurrency, _, rfl⟩

theorem make_of_error {given : MoneyInput} {e : PyError} (h : coerceDecimal unicode given = .error e)
    (currency : String) : make unicode given currency = .error e := by
  unfold make
  split
  · next e' herror =>
    rw [h] at herror
    cases herror
    rfl
  · next amount hamount =>
    rw [h] at hamount
    cases hamount

theorem exactOrRefused_of_number {given : MoneyInput} {v : ℚ} (hnumber : given.number unicode = some v)
    (currency : String) :
    ExactOrRefused (some v) (make unicode given currency) ↔ v < edge := by
  rcases coerceDecimal_cases unicode given with ⟨d, hd, hcoerce⟩ | ⟨hnone, -⟩
  · obtain rfl := Option.some.inj (hnumber.symm.trans hd)
    cases hfinite : coerceFinite d with
    | ok amount =>
      obtain ⟨hheld, hvalue⟩ := coerceFinite_eq_ok.mp hfinite
      have hsmall : d.value < edge := by
        rw [← not_le, ← coerceFinite_invalid, hfinite]
        simp
      refine iff_of_true ?_ hsmall
      rcases make_of_ok (hcoerce.trans hfinite) currency with ⟨m, hm, hamount, -⟩ | ⟨-, hrefused⟩
      · exact .inl ⟨m, hm, by rw [hamount, hvalue]⟩
      · exact .inr hrefused
    | error e =>
      unfold ExactOrRefused
      rw [make_of_error (hcoerce.trans hfinite)]
      rcases coerceFinite_error hfinite with ⟨message, rfl⟩ | rfl
      · refine iff_of_true (.inr ⟨message, rfl⟩) ?_
        rw [← not_le, ← coerceFinite_invalid, hfinite]
        simp
      · refine iff_of_false (by simp) ?_
        exact not_lt.mpr (coerceFinite_invalid.mp hfinite)
  · rw [hnumber] at hnone
    cases hnone

/-- An amount is held exactly or refused if and only if it is below the edge, where it is a number. -/
theorem make_exact (unicode : Unicode) (given : MoneyInput) (currency : String) :
    ExactOrRefused (given.number unicode) (make unicode given currency) ↔
      ∀ v, given.number unicode = some v → v < edge := by
  rcases coerceDecimal_cases unicode given with ⟨d, hd, -⟩ | ⟨hnone, message, herror⟩
  · rw [hd, exactOrRefused_of_number hd]
    simp
  · rw [hnone]
    exact iff_of_true (.inr ⟨message, make_of_error herror currency⟩) (by simp)

/-! ## Sums -/

section Sums

variable {m other : DecimalMoney}

theorem exists_sum (m other : DecimalMoney) :
    ∃ n : Nat, n < 2 * 10 ^ precision ∧ (m.amount.sum other.amount).value = n * 10 ^ (-2 : Int) := by
  obtain ⟨n, hn, hm⟩ := m.held.cents
  obtain ⟨k, hk, hother⟩ := other.held.cents
  refine ⟨n + k, by omega, ?_⟩
  rw [sum_value, hm, hother]
  push_cast
  ring

theorem exists_add (m other : DecimalMoney) : ∃ r, m.amount.add other.amount = some r := by
  obtain ⟨n, hn, hvalue⟩ := exists_sum m other
  unfold PyDecimal.add fixed
  split
  · exact ⟨_, rfl⟩
  · next hpos =>
    have hadjusted : (m.amount.sum other.amount).adjusted < (27 : Nat) := by
      rw [adjusted_lt_iff hpos, ← value_of_nonneg (hvalue ▸ by positivity), hvalue]
      exact cents_lt_pow.mpr (hn.trans (by decide))
    have htop : (27 : Int) < exponentTop := by decide
    apply exists_fix
    unfold adjusted at hadjusted
    omega

theorem add_exact (h : m.currency = other.currency) :
    ExactOrRefused (some (m.amount.value + other.amount.value)) (m.add unicode other) ↔
      m.amount.value + other.amount.value < edge := by
  obtain ⟨n, -, hsum⟩ := exists_sum m other
  obtain ⟨r, hr⟩ := exists_add m other
  have hadd : m.add unicode other = make unicode (.decimal (.finite r)) m.currency := by
    simp [DecimalMoney.add, requireCurrency, h, hr]
  rw [hadd, ← sum_value]
  by_cases hn : n < 10 ^ precision
  · -- the decimals are added exactly
    obtain ⟨r', hr', hvalue⟩ := fixed_exact hsum hn (by decide) (by decide)
    obtain rfl := Option.some.inj (hr.symm.trans hr')
    rw [← hvalue]
    exact exactOrRefused_of_number rfl m.currency
  · have hlarge : (10 : ℚ) ^ ((26 : Nat) : Int) ≤ (m.amount.sum other.amount).value := by
      rw [hsum]
      exact not_lt.mp (cents_lt_pow.not.mpr hn)
    have hedge : edge < (10 : ℚ) ^ ((26 : Nat) : Int) := by norm_num [edge]
    -- the rounded sum is not smaller than the power of ten
    have hrounded : edge ≤ r.value := hedge.le.trans (fixed_large (by decide) hlarge hr)
    have herror : coerceDecimal unicode (.decimal (.finite r)) = .error .invalidOperation :=
      coerceFinite_invalid.mpr hrounded
    unfold ExactOrRefused
    rw [make_of_error herror]
    refine iff_of_false (by simp) ?_
    linarith

end Sums

/-! ## The round trip -/

theorem upperText_of_isCurrency {currency : String} (h : isCurrency currency = true) :
    unicode.upperText currency = currency := by
  have hupper : ∀ c ∈ currency.toList, c.isUpper = true := by
    unfold isCurrency at h
    exact List.all_eq_true.mp (Bool.and_eq_true_iff.mp h).2
  have hchar : ∀ c ∈ currency.toList,
      (if c.toNat ≤ 127 then [c.toUpper] else unicode.upper c) = [c] := by
    intro c hc
    have hrange := of_decide_eq_true (hupper c hc)
    simp only [ge_iff_le, UInt32.le_iff_toNat_le] at hrange
    have hcode : 65 ≤ c.toNat ∧ c.toNat ≤ 90 := hrange
    have hkept : c.toUpper = c := by
      unfold Char.toUpper
      split
      · next hlower =>
        exfalso
        simp only [UInt32.le_iff_toNat_le] at hlower
        have hlower : 97 ≤ c.toNat := hlower.1
        omega
      · rfl
    rw [if_pos (by omega), hkept]
  unfold Unicode.upperText
  rw [List.flatMap_congr hchar]
  simp

theorem read_formatTwo {amount : PyDecimal} (h : Held amount) :
    coerceDecimal unicode (.text (String.ofList amount.formatTwo)) = .ok amount := by
  obtain ⟨n, hn, hcents⟩ := h.cents
  have hvalue := rescale_value hcents
  have hsign : (amount.rescale (-2)).negative = false := by rw [rescale_negative, h.positive]
  have hlimits : PyNumber.inLimits (amount.rescale (-2)) = true := by
    have hadjusted : (amount.rescale (-2)).coefficient ≠ 0 →
        (amount.rescale (-2)).adjusted < (26 : Nat) := by
      intro hpos
      rw [adjusted_lt_iff hpos, ← value_of_positive hsign, hvalue, hcents]
      exact cents_lt_pow.mpr hn
    simp only [PyNumber.inLimits, rescale_exponent, Bool.and_eq_true, decide_eq_true_eq]
    refine ⟨by decide, ?_⟩
    split
    · decide
    · next hpos => exact (hadjusted hpos).le.trans (by decide)
  have hbody : amount.formatTwo = (amount.rescale (-2)).body := by
    simp [formatTwo, format, h.positive]
  have hread : coerceDecimal unicode (.text (String.ofList amount.formatTwo)) =
      coerceFinite (amount.rescale (-2)) := by
    have htext := PyNumber.ofText_body unicode hsign (by simp) hlimits
    simp [coerceDecimal, MoneyInput.read, hbody, htext]
  rw [hread]
  exact coerceFinite_eq_ok.mpr ⟨h, hvalue.symm⟩

theorem fromDict_toDict (m : DecimalMoney) : fromDict unicode m.toDict = .ok m := by
  have hitems : m.toDict.items =
      [("amount", .text (String.ofList m.amount.formatTwo)), ("currency", .text m.currency)] :=
    Dict.items_ofList_of_nodup (by simp)
  have hamount : m.toDict.get? "amount" = some (.text (String.ofList m.amount.formatTwo)) := by
    unfold Dict.get?
    rw [hitems]
    rfl
  have hcurrency : m.toDict.get? "currency" = some (.text m.currency) := by
    unfold Dict.get?
    rw [hitems]
    rfl
  have hmake : make unicode (.text (String.ofList m.amount.formatTwo)) m.currency = .ok m := by
    have hupper : unicode.upperText m.currency = m.currency :=
      upperText_of_isCurrency m.currency_ok
    rcases make_of_ok (read_formatTwo m.held) m.currency with ⟨m', hm', hsame, hcur⟩ | ⟨hrefused, -⟩
    · rw [hm']
      exact congrArg _ (DecimalMoney.ext hsame (hcur.trans hupper))
    · rw [hupper, m.currency_ok] at hrefused
      cases hrefused
  unfold fromDict
  rw [hitems, hamount, hcurrency]
  simp [hmake]

/-! ## Whole cents -/

end DecimalMoney

/-! ## Exact or refused -/

open DecimalMoney in
/-- Money is exact or refused if and only if the number, or the sum, is below the edge; what is
    written is always read again. -/
theorem money_exact_or_refused (unicode : Unicode) :
    (∀ (given : MoneyInput) (currency : String),
      ExactOrRefused (given.number unicode) (make unicode given currency) ↔
        ∀ v, given.number unicode = some v → v < edge) ∧
    (∀ m other : DecimalMoney, m.currency = other.currency →
      (ExactOrRefused (some (m.amount.value + other.amount.value)) (m.add unicode other) ↔
        m.amount.value + other.amount.value < edge)) ∧
    ∀ m : DecimalMoney, fromDict unicode m.toDict = .ok m :=
  ⟨make_exact unicode, fun _ _ h => add_exact h, fromDict_toDict⟩

namespace DecimalMoney.Sample

/-- No digits and no letters outside ASCII -/
def ascii : Unicode where
  decimal _ := none
  upper c := [c]

/-- `Decimal("5E+25")` -/
def half : PyDecimal := ⟨false, 5, 25⟩

theorem half_value : half.value = (5 * 10 ^ 27 : Nat) * 10 ^ (-2 : Int) := by
  norm_num [half, value]

/-- Half of `10^26` -/
def halfMoney : DecimalMoney where
  amount := half
  currency := "USD"
  held := ⟨.inr (by decide), rfl, 5 * 10 ^ 27, by decide, half_value⟩
  currency_ok := isCurrency_usd

/-- `Money("89.00", "USD")` -/
def small : DecimalMoney where
  amount := ⟨false, 89, 0⟩
  currency := "USD"
  held := ⟨.inr (by decide), rfl, 8900, by decide, by norm_num [value]⟩
  currency_ok := isCurrency_usd

end DecimalMoney.Sample

open DecimalMoney DecimalMoney.Sample in
theorem money_exact_or_refused_sample :
    ExactOrRefused ((MoneyInput.text "89.00").number ascii) (make ascii (.text "89.00") "usd") ∧
      ExactOrRefused (some (halfMoney.amount.value + small.amount.value)) (halfMoney.add ascii small) ∧
      fromDict ascii halfMoney.toDict = .ok halfMoney := by
  obtain ⟨hmake, hadd, hround⟩ := money_exact_or_refused ascii
  refine ⟨(hmake (.text "89.00") "usd").mpr ?_, (hadd halfMoney small rfl).mpr ?_, hround halfMoney⟩
  · have hnumber : (MoneyInput.text "89.00").number ascii = some 89 := by decide +kernel
    rintro v hv
    obtain rfl := Option.some.inj (hnumber.symm.trans hv)
    norm_num [edge]
  · norm_num [halfMoney, half, small, value, edge]

open DecimalMoney DecimalMoney.Sample in
/-- `10^26` is neither held nor refused, and neither is the sum of its two halves. -/
theorem too_many_digits_escape :
    ¬ ExactOrRefused ((MoneyInput.text "100000000000000000000000000").number ascii)
        (make ascii (.text "100000000000000000000000000") "USD") ∧
      ¬ ExactOrRefused (some (halfMoney.amount.value + halfMoney.amount.value))
        (halfMoney.add ascii halfMoney) := by
  constructor
  · have hnumber : (MoneyInput.text "100000000000000000000000000").number ascii =
        some 100000000000000000000000000 := by decide +kernel
    rw [make_exact, hnumber]
    simp only [Option.some.injEq, forall_eq', not_lt]
    norm_num [edge]
  · rw [add_exact rfl]
    norm_num [halfMoney, half, value, edge]

end Domain
