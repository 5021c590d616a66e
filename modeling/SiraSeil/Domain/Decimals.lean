-- SUMMARY: Finite decimals with the rounding of the default context, and their canonical text, which is the same exactly for decimals that round alike.
import Mathlib.Data.List.DropRight
import Mathlib.Data.Rat.Defs
import Mathlib.Tactic.FieldSimp
import Mathlib.Tactic.Linarith
import Mathlib.Tactic.Ring

/-!
# Decimals

A finite `Decimal`, `Decimal.normalize` in the default context, `format(value, "f")`, and
`_decimal_text` of `domain/hashing.py`, which is built from them.
-/

namespace Domain

/-- A finite `Decimal`: its sign, its digits as a number, and its exponent -/
@[ext]
structure PyDecimal where
  negative : Bool := false
  coefficient : Nat
  exponent : Int := 0
  deriving DecidableEq, Repr

namespace PyDecimal

/-- The number that a decimal is -/
def value (d : PyDecimal) : ℚ :=
  (if d.negative then -1 else 1) * d.coefficient * 10 ^ d.exponent

/-- `len(value._int)` -/
def length (d : PyDecimal) : Nat :=
  (Nat.toDigits 10 d.coefficient).length

/-! ## The default context -/

/-- `prec` -/
def precision : Nat := 28

/-- `Emax` -/
def exponentMax : Int := 999999

/-- `Etiny()`, for the least exponent `-999999` -/
def exponentTiny : Int := -1000026

/-- `Etop()` -/
def exponentTop : Int := 999972

/-- Drop the last digits of a coefficient, and round half to even. -/
def roundHalfEven (coefficient drop : Nat) : Nat :=
  let kept := coefficient / 10 ^ drop
  let rest := coefficient % 10 ^ drop
  if 10 ^ drop < 2 * rest ∨ (2 * rest = 10 ^ drop ∧ kept % 2 = 1) then kept + 1 else kept

/-- A coefficient that has one digit too many gives its last one, a zero, to the exponent. -/
def carry (coefficient : Nat) (exponent : Int) : Nat × Int :=
  if 10 ^ precision ≤ coefficient then (coefficient / 10, exponent + 1) else (coefficient, exponent)

/-- The number with a greater exponent -/
def roundTo (d : PyDecimal) (exponent : Int) : PyDecimal :=
  let rounded := carry (roundHalfEven d.coefficient (exponent - d.exponent).toNat) exponent
  ⟨d.negative, rounded.1, rounded.2⟩

/-- `exp_min` -/
def exponentLeast (d : PyDecimal) : Int :=
  max (d.length + d.exponent - precision) exponentTiny

/-- `_fix` of a number other than zero; none where it raises `Overflow` -/
def fix (d : PyDecimal) : Option PyDecimal :=
  if exponentTop < d.length + d.exponent - precision then none
  else if d.exponent < d.exponentLeast then
    if exponentTop < (d.roundTo d.exponentLeast).exponent then none
    else some (d.roundTo d.exponentLeast)
  else some d

/-- Trailing zeros go to the exponent, as many as the first argument allows. -/
def strip : Nat → Nat → Int → Nat × Int
  | 0, coefficient, exponent => (coefficient, exponent)
  | fuel + 1, coefficient, exponent =>
    if coefficient % 10 = 0 ∧ exponent < exponentMax then
      strip fuel (coefficient / 10) (exponent + 1)
    else (coefficient, exponent)

/-- `normalize` of a number other than zero -/
def normalize (d : PyDecimal) : Option PyDecimal :=
  d.fix.map (fun fixed =>
    if fixed.coefficient = 0 then ⟨fixed.negative, 0, 0⟩
    else
      let (coefficient, exponent) := strip fixed.length fixed.coefficient fixed.exponent
      ⟨fixed.negative, coefficient, exponent⟩)

/-! ## Text -/

/-- `intpart or "0"`, and the point before a fraction -/
def pointed (whole fraction : List Char) : List Char :=
  (if whole = [] then ['0'] else whole) ++ (if fraction = [] then [] else '.' :: fraction)

/-- `format(value, "f")` without the sign -/
def body (d : PyDecimal) : List Char :=
  let digits := Nat.toDigits 10 d.coefficient
  let point := d.length + d.exponent
  if point < 0 then '0' :: '.' :: (List.replicate (-point).toNat '0' ++ digits)
  else if d.length < point then digits ++ List.replicate (point - d.length).toNat '0'
  else pointed (digits.take point.toNat) (digits.drop point.toNat)

/-- `format(value, "f")` -/
def format (d : PyDecimal) : List Char :=
  if d.negative then '-' :: d.body else d.body

/-- `text.rstrip(c)` -/
def rstrip (c : Char) (text : List Char) : List Char :=
  text.rdropWhile (· = c)

/-- `_decimal_text`; none where `normalize` raises `Overflow` -/
def text (d : PyDecimal) : Option (List Char) :=
  if d.coefficient = 0 then some ['0']
  else d.normalize.map (fun normal =>
    if '.' ∈ normal.format then rstrip '.' (rstrip '0' normal.format) else normal.format)

/-- The decimal that the text of a decimal is of: zero without a sign, or the rounded one without
    trailing zeros -/
def rounded (d : PyDecimal) : Option PyDecimal :=
  if d.coefficient = 0 then some ⟨false, 0, 0⟩ else d.normalize

/-- Zero with exponent zero, or a number whose last digit is not zero -/
def Normal (d : PyDecimal) : Prop :=
  (d.coefficient = 0 ∧ d.exponent = 0) ∨ ¬ 10 ∣ d.coefficient

/-! ## Rounding -/

theorem length_le_iff {n k : Nat} (hk : 0 < k) : (Nat.toDigits 10 n).length ≤ k ↔ n < 10 ^ k :=
  Nat.length_toDigits_le_iff (by decide) hk

theorem lt_pow_length (d : PyDecimal) : d.coefficient < 10 ^ d.length :=
  (length_le_iff Nat.length_toDigits_pos).mp (le_refl _)

variable {d n x y : PyDecimal} {coefficient : Nat} {whole : List Char}

theorem roundHalfEven_le {drop bound : Nat} (h : coefficient < 10 ^ (bound + drop)) :
    roundHalfEven coefficient drop ≤ 10 ^ bound := by
  have hkept : coefficient / 10 ^ drop < 10 ^ bound :=
    Nat.div_lt_of_lt_mul (by rw [← pow_add, Nat.add_comm]; exact h)
  unfold roundHalfEven
  simp only
  split <;> omega

theorem carry_lt (exponent : Int) (h : coefficient ≤ 10 ^ precision) :
    (carry coefficient exponent).1 < 10 ^ precision := by
  unfold carry precision at *
  split <;> omega

theorem length_roundTo (d : PyDecimal) : (d.roundTo d.exponentLeast).length ≤ precision := by
  refine (length_le_iff (by decide)).mpr (carry_lt _ (roundHalfEven_le ?_))
  refine d.lt_pow_length.trans_le (Nat.pow_le_pow_right (by decide) ?_)
  unfold exponentLeast
  omega

theorem fix_bound (h : d.fix = some n) : n.length + n.exponent ≤ exponentMax + 1 := by
  have hmax : exponentTop + precision = exponentMax + 1 := by decide
  unfold fix at h
  split at h
  · cases h
  · split at h
    · split at h
      · cases h
      · cases h
        have hlength := d.length_roundTo
        omega
    · cases h
      omega

theorem strip_spec {fuel : Nat} {exponent : Int} (hpos : 0 < coefficient)
    (hfuel : coefficient < 10 ^ fuel) (hbound : fuel + exponent ≤ exponentMax + 1) :
    ¬ 10 ∣ (strip fuel coefficient exponent).1 ∧
      ∃ zeros : Nat, coefficient = (strip fuel coefficient exponent).1 * 10 ^ zeros ∧
        (strip fuel coefficient exponent).2 = exponent + zeros := by
  induction fuel generalizing coefficient exponent with
  | zero => omega
  | succ fuel ih =>
    unfold strip
    split
    · next hzero =>
      have hsmaller : coefficient / 10 < 10 ^ fuel := by
        rw [pow_succ] at hfuel
        omega
      have hfits : fuel + (exponent + 1) ≤ exponentMax + 1 := by omega
      obtain ⟨hlast, zeros, hvalue, hexponent⟩ := ih (by omega) hsmaller hfits
      refine ⟨hlast, zeros + 1, ?_, ?_⟩
      · rw [pow_succ, ← Nat.mul_assoc, ← hvalue]
        omega
      · rw [hexponent]
        omega
    · next hstop =>
      refine ⟨fun hdvd => hstop ⟨Nat.mod_eq_zero_of_dvd hdvd, ?_⟩, 0, by simp, by simp⟩
      -- A number with a trailing zero has more than one digit.
      have hfuel : fuel ≠ 0 := by
        rintro rfl
        omega
      omega

theorem normal_of_normalize (h : d.normalize = some n) : n.Normal := by
  unfold normalize at h
  obtain ⟨fixed, hfixed, rfl⟩ := Option.map_eq_some_iff.mp h
  split
  · exact .inl ⟨rfl, rfl⟩
  · next hpos =>
    exact .inr (strip_spec (Nat.pos_of_ne_zero hpos) fixed.lt_pow_length (fix_bound hfixed)).1

theorem normal_of_rounded (h : d.rounded = some n) : n.Normal := by
  unfold rounded at h
  split at h
  · cases h
    exact .inl ⟨rfl, rfl⟩
  · exact normal_of_normalize h

/-! ## Reading a text -/

theorem ne_of_mem_toDigits {n : Nat} {c d : Char} (hc : c ∈ Nat.toDigits 10 n)
    (hd : d.isDigit = false) : c ≠ d := by
  rintro rfl
  rw [Nat.isDigit_of_mem_toDigits (by decide) (by decide) hc] at hd
  cases hd

/-- The digits of a text as a number, and how many of them stand behind the point -/
def reading (text : List Char) : Nat × Nat :=
  let fraction := (text.dropWhile (· ≠ '.')).drop 1
  (Nat.ofDigitChars 10 (text.takeWhile (· ≠ '.') ++ fraction) 0, fraction.length)

theorem reading_whole (h : ∀ c ∈ whole, c ≠ '.') :
    reading whole = (Nat.ofDigitChars 10 whole 0, 0) := by
  have hall : ∀ c ∈ whole, decide (c ≠ '.') = true := fun c hc => decide_eq_true (h c hc)
  unfold reading
  rw [List.takeWhile_eq_self_iff.mpr hall, List.dropWhile_eq_nil_iff.mpr hall]
  simp

theorem reading_point (h : ∀ c ∈ whole, c ≠ '.') (fraction : List Char) :
    reading (whole ++ '.' :: fraction) =
      (Nat.ofDigitChars 10 (whole ++ fraction) 0, fraction.length) := by
  have hall : ∀ c ∈ whole, decide (c ≠ '.') = true := fun c hc => decide_eq_true (h c hc)
  unfold reading
  rw [List.takeWhile_append_of_pos hall, List.dropWhile_append_of_pos hall]
  simp

theorem reading_pointed (h : ∀ c ∈ whole, c ≠ '.') (fraction : List Char) :
    reading (pointed whole fraction) =
      (Nat.ofDigitChars 10 (whole ++ fraction) 0, fraction.length) := by
  unfold pointed
  by_cases hwhole : whole = []
  · rw [if_pos hwhole, hwhole]
    by_cases hfraction : fraction = []
    · rw [if_pos hfraction, hfraction]
      rfl
    · rw [if_neg hfraction, reading_point (by simp)]
      simp [Nat.ofDigitChars_cons]
  · rw [if_neg hwhole]
    by_cases hfraction : fraction = []
    · rw [if_pos hfraction, hfraction, List.append_nil, reading_whole h]
      rfl
    · rw [if_neg hfraction, reading_point h]

/-- The text of a number reads as its digits, with as many behind the point as its exponent says. -/
theorem reading_body (d : PyDecimal) :
    reading d.body = (d.coefficient * 10 ^ d.exponent.toNat, (-d.exponent).toNat) := by
  have hdigits : ∀ c ∈ Nat.toDigits 10 d.coefficient, c ≠ '.' :=
    fun c hc => ne_of_mem_toDigits hc (by decide)
  have hlength : (Nat.toDigits 10 d.coefficient).length = d.length := rfl
  unfold body
  simp only
  split
  · next hsmall =>
    have hexponent : d.exponent.toNat = 0 := by omega
    show reading (['0'] ++ '.' :: _) = _
    rw [reading_point (by simp), hexponent]
    refine Prod.ext ?_ ?_
    · simp [Nat.ofDigitChars_append, Nat.ofDigitChars_cons]
    · simp only [List.length_append, List.length_replicate, hlength]
      omega
  · next hlarge =>
    split
    · next hwhole =>
      have hzeros : (d.length + d.exponent - d.length).toNat = d.exponent.toNat := by omega
      have hexponent : (-d.exponent).toNat = 0 := by omega
      rw [hzeros, hexponent, reading_whole]
      · rw [Nat.ofDigitChars_append, Nat.ofDigitChars_ten_toDigits,
          Nat.ofDigitChars_replicate_zero, Nat.mul_comm]
      · intro c hc
        rcases List.mem_append.mp hc with hc | hc
        · exact hdigits c hc
        · rw [List.eq_of_mem_replicate hc]
          decide
    · next hpoint =>
      have hexponent : d.exponent.toNat = 0 := by omega
      rw [hexponent, pow_zero, Nat.mul_one]
      rw [reading_pointed (fun c hc => hdigits c (List.mem_of_mem_take hc)), List.take_append_drop,
        Nat.ofDigitChars_ten_toDigits]
      refine Prod.ext rfl ?_
      simp only [List.length_drop, hlength]
      omega

/-! ## Equal texts -/

theorem scaled_injective {a b m n : Nat} (ha : (a = 0 ∧ m = 0) ∨ ¬ 10 ∣ a)
    (hb : (b = 0 ∧ n = 0) ∨ ¬ 10 ∣ b) (h : a * 10 ^ m = b * 10 ^ n) : a = b ∧ m = n := by
  have hle : ∀ {a b m n : Nat}, ((a = 0 ∧ m = 0) ∨ ¬ 10 ∣ a) → ((b = 0 ∧ n = 0) ∨ ¬ 10 ∣ b) →
      a * 10 ^ m = b * 10 ^ n → n ≤ m := by
    intro a b m n ha hb h
    by_contra hlt
    obtain ⟨k, rfl⟩ := Nat.exists_eq_add_of_lt (not_le.mp hlt)
    have hpos : 0 < 10 ^ m := Nat.pow_pos (by decide)
    have hshift : a = b * 10 ^ k * 10 := by
      refine Nat.eq_of_mul_eq_mul_right hpos (h.trans ?_)
      rw [pow_succ, pow_add]
      ring
    rcases ha with ⟨rfl, rfl⟩ | ha
    · rcases hb with ⟨-, hzero⟩ | hb
      · omega
      · have hb0 : b = 0 := by
          rcases Nat.mul_eq_zero.mp hshift.symm with hprod | hten
          · exact (Nat.mul_eq_zero.mp hprod).resolve_right (Nat.pow_pos (by decide)).ne'
          · cases hten
        exact hb (hb0 ▸ dvd_zero 10)
    · exact ha ⟨b * 10 ^ k, hshift.trans (Nat.mul_comm _ _)⟩
  have hmn : m = n := le_antisymm (hle hb ha h.symm) (hle ha hb h)
  subst hmn
  exact ⟨Nat.eq_of_mul_eq_mul_right (Nat.pow_pos (by decide)) h, rfl⟩

theorem Normal.scaled (hd : d.Normal) {n : Nat} (hn : d.exponent = n) :
    (d.coefficient = 0 ∧ n = 0) ∨ ¬ 10 ∣ d.coefficient := by
  rcases hd with ⟨hzero, hexponent⟩ | hlast
  · exact .inl ⟨hzero, by omega⟩
  · exact .inr hlast

theorem eq_of_reading (hx : x.Normal) (hy : y.Normal) (hsign : x.negative = y.negative)
    (h : reading x.body = reading y.body) : x = y := by
  rw [reading_body, reading_body, Prod.mk.injEq] at h
  obtain ⟨hdigits, hpoint⟩ := h
  have hsame : x.coefficient = y.coefficient ∧ x.exponent = y.exponent := by
    by_cases hfraction : x.exponent < 0 ∨ y.exponent < 0
    · have hxzero : x.exponent.toNat = 0 := by omega
      have hyzero : y.exponent.toNat = 0 := by omega
      rw [hxzero, hyzero, pow_zero, Nat.mul_one, Nat.mul_one] at hdigits
      exact ⟨hdigits, by omega⟩
    · rw [not_or, not_lt, not_lt] at hfraction
      obtain ⟨m, hm⟩ := Int.eq_ofNat_of_zero_le hfraction.1
      obtain ⟨n, hn⟩ := Int.eq_ofNat_of_zero_le hfraction.2
      rw [hm, hn, Int.toNat_natCast, Int.toNat_natCast] at hdigits
      obtain ⟨hcoefficient, rfl⟩ := scaled_injective (hx.scaled hm) (hy.scaled hn) hdigits
      exact ⟨hcoefficient, hm.trans hn.symm⟩
  exact PyDecimal.ext hsign hsame.1 hsame.2

theorem getLast_toDigits (n : Nat) :
    (Nat.toDigits 10 n).getLast? = some (Nat.digitChar (n % 10)) := by
  rw [Nat.toDigits_eq_if (by decide)]
  split
  · next hlt => simp [Nat.mod_eq_of_lt hlt]
  · simp

theorem mem_body {c : Char} (hc : c ∈ d.body) : c.isDigit = true ∨ c = '.' := by
  have hdigits : ∀ c ∈ Nat.toDigits 10 d.coefficient, c.isDigit = true :=
    fun c hc => Nat.isDigit_of_mem_toDigits (by decide) (by decide) hc
  have hzeros : ∀ {n}, c ∈ List.replicate n '0' → c.isDigit = true := by
    intro n hc
    rw [List.eq_of_mem_replicate hc]
    decide
  unfold body at hc
  simp only at hc
  split at hc
  · rcases List.mem_cons.mp hc with rfl | hc
    · exact .inl (by decide)
    · rcases List.mem_cons.mp hc with rfl | hc
      · exact .inr rfl
      · exact .inl ((List.mem_append.mp hc).elim hzeros (hdigits c))
  · split at hc
    · exact .inl ((List.mem_append.mp hc).elim (hdigits c) hzeros)
    · unfold pointed at hc
      rcases List.mem_append.mp hc with hc | hc
      · split at hc
        · rw [List.mem_singleton.mp hc]
          exact .inl (by decide)
        · exact .inl (hdigits c (List.mem_of_mem_take hc))
      · split at hc
        · cases hc
        · rcases List.mem_cons.mp hc with rfl | hc
          · exact .inr rfl
          · exact .inl (hdigits c (List.mem_of_mem_drop hc))

theorem getLast_body (hpoint : '.' ∈ d.body) :
    d.body.getLast? = (Nat.toDigits 10 d.coefficient).getLast? := by
  have hdigits : '.' ∉ Nat.toDigits 10 d.coefficient :=
    fun hc => ne_of_mem_toDigits hc (by decide) rfl
  unfold body at hpoint ⊢
  simp only at hpoint ⊢
  split
  · show ('0' :: '.' :: List.replicate _ '0' ++ _).getLast? = _
    exact List.getLast?_append_of_ne_nil _ Nat.toDigits_ne_nil
  · next hlarge =>
    rw [if_neg hlarge] at hpoint
    split
    · next hwhole =>
      rw [if_pos hwhole] at hpoint
      rcases List.mem_append.mp hpoint with hc | hc
      · exact absurd hc hdigits
      · cases List.eq_of_mem_replicate hc
    · next hsplit =>
      rw [if_neg hsplit] at hpoint
      unfold pointed at hpoint ⊢
      by_cases hfraction : (Nat.toDigits 10 d.coefficient).drop (d.length + d.exponent).toNat = []
      · rw [if_pos hfraction, List.append_nil] at hpoint
        split at hpoint
        · cases List.mem_singleton.mp hpoint
        · exact absurd (List.mem_of_mem_take hpoint) hdigits
      · rw [if_neg hfraction, List.append_cons, List.getLast?_append_of_ne_nil _ hfraction]
        conv_rhs => rw [← List.take_append_drop (d.length + d.exponent).toNat
          (Nat.toDigits 10 d.coefficient)]
        rw [List.getLast?_append_of_ne_nil _ hfraction]

theorem getLast_format (hd : d.Normal) (hpoint : '.' ∈ d.format) :
    ∃ c, d.format.getLast? = some c ∧ c ≠ '0' ∧ c ≠ '.' := by
  have hbody : '.' ∈ d.body ∧ d.format.getLast? = d.body.getLast? := by
    unfold format at hpoint ⊢
    split
    · next hsign =>
      rw [if_pos hsign] at hpoint
      have hmem : '.' ∈ d.body := (List.mem_cons.mp hpoint).resolve_left (by decide)
      refine ⟨hmem, ?_⟩
      exact List.getLast?_append_of_ne_nil ['-'] (List.ne_nil_of_mem hmem)
    · next hsign =>
      rw [if_neg hsign] at hpoint
      exact ⟨hpoint, rfl⟩
  refine ⟨Nat.digitChar (d.coefficient % 10), ?_, ?_⟩
  · rw [hbody.2, getLast_body hbody.1, getLast_toDigits]
  · have hlast : ¬ 10 ∣ d.coefficient := by
      rcases hd with ⟨hzero, hexponent⟩ | hlast
      · -- Zero has no point.
        exfalso
        have hzeroBody : d.body = ['0'] := by
          unfold body length
          rw [hzero, hexponent]
          rfl
        rw [hzeroBody] at hbody
        cases List.mem_singleton.mp hbody.1
      · exact hlast
    have hrange : d.coefficient % 10 < 10 := Nat.mod_lt _ (by decide)
    have hpos : d.coefficient % 10 ≠ 0 := fun h => hlast (Nat.dvd_of_mod_eq_zero h)
    have hall : ∀ n < 10, n ≠ 0 → Nat.digitChar n ≠ '0' ∧ Nat.digitChar n ≠ '.' := by decide
    exact hall _ hrange hpos

theorem trimmed_format (hd : d.Normal) :
    (if '.' ∈ d.format then rstrip '.' (rstrip '0' d.format) else d.format) = d.format := by
  split
  · next hpoint =>
    obtain ⟨c, hlast, hzero, hdot⟩ := getLast_format hd hpoint
    have hstrip : ∀ stripped, c ≠ stripped → rstrip stripped d.format = d.format := by
      intro stripped hne
      refine List.rdropWhile_eq_self_iff.mpr (fun hnil => ?_)
      rw [List.getLast?_eq_some_getLast hnil] at hlast
      rw [Option.some.inj hlast]
      simpa using hne
    rw [hstrip '0' hzero, hstrip '.' hdot]
  · rfl

theorem text_eq_rounded (d : PyDecimal) : d.text = d.rounded.map format := by
  unfold text rounded
  split
  · decide
  · refine Option.map_congr (fun n hn => ?_)
    exact trimmed_format (normal_of_normalize hn)

theorem format_injective (hx : x.Normal) (hy : y.Normal) (h : x.format = y.format) : x = y := by
  have hminus : ∀ d : PyDecimal, '-' ∉ d.body := by
    intro d hc
    rcases mem_body hc with hdigit | hpoint
    · cases hdigit
    · cases hpoint
  unfold format at h
  cases hxs : x.negative with
  | true =>
    cases hys : y.negative with
    | true =>
      rw [hxs, hys] at h
      exact eq_of_reading hx hy (hxs.trans hys.symm) (congrArg reading (List.cons.inj h).2)
    | false =>
      rw [hxs, hys, if_pos rfl, if_neg Bool.false_ne_true] at h
      exact absurd (h ▸ List.mem_cons_self) (hminus y)
  | false =>
    cases hys : y.negative with
    | true =>
      rw [hxs, hys, if_pos rfl, if_neg Bool.false_ne_true] at h
      exact absurd (h ▸ List.mem_cons_self) (hminus x)
    | false =>
      rw [hxs, hys] at h
      exact eq_of_reading hx hy (hxs.trans hys.symm) (congrArg reading h)

theorem text_eq_iff : x.text = y.text ↔ x.rounded = y.rounded := by
  rw [text_eq_rounded, text_eq_rounded]
  cases hx : x.rounded with
  | none => cases hy : y.rounded <;> simp
  | some m =>
    cases hy : y.rounded with
    | none => simp
    | some n =>
      rw [Option.map_some, Option.map_some, Option.some.injEq, Option.some.injEq]
      exact ⟨format_injective (normal_of_rounded hx) (normal_of_rounded hy), congrArg format⟩

/-! ## Equal numbers -/

theorem value_eq_zero : d.value = 0 ↔ d.coefficient = 0 := by
  unfold value
  have hsign : (if d.negative then (-1 : ℚ) else 1) ≠ 0 := by split <;> norm_num
  have hpower : (10 : ℚ) ^ d.exponent ≠ 0 := zpow_ne_zero _ (by norm_num)
  rw [mul_eq_zero, mul_eq_zero, or_iff_left hpower, or_iff_right hsign, Nat.cast_eq_zero]

theorem magnitude_of_value (hx : x.coefficient ≠ 0) (h : x.value = y.value) :
    x.negative = y.negative ∧
      (x.coefficient : ℚ) * 10 ^ x.exponent = y.coefficient * 10 ^ y.exponent := by
  have hy : y.coefficient ≠ 0 := by
    rw [ne_eq, ← value_eq_zero, ← h, value_eq_zero]
    exact hx
  have hpositive : ∀ d : PyDecimal, d.coefficient ≠ 0 →
      0 < (d.coefficient : ℚ) * 10 ^ d.exponent := by
    intro d hd
    have hcast : (0 : ℚ) < d.coefficient := by exact_mod_cast Nat.pos_of_ne_zero hd
    exact mul_pos hcast (zpow_pos (by norm_num) _)
  have hxpos := hpositive x hx
  have hypos := hpositive y hy
  unfold value at h
  rw [mul_assoc, mul_assoc] at h
  have hsign : x.negative = y.negative := by
    cases hxs : x.negative <;> cases hys : y.negative <;> simp only [hxs, hys] at h ⊢ <;>
      norm_num at h <;> linarith
  rw [hsign] at h
  refine ⟨hsign, mul_left_cancel₀ ?_ h⟩
  split <;> norm_num

theorem eq_of_value (hx : ¬ 10 ∣ x.coefficient) (hy : ¬ 10 ∣ y.coefficient)
    (h : x.value = y.value) : x = y := by
  obtain ⟨hsign, hmagnitude⟩ := magnitude_of_value (fun hzero => hx (hzero ▸ dvd_zero 10)) h
  -- Both exponents are shifted to natural numbers.
  obtain ⟨shift, hxshift, hyshift⟩ : ∃ shift : Int, 0 ≤ x.exponent + shift ∧ 0 ≤ y.exponent + shift :=
    ⟨max (-x.exponent) (-y.exponent), by omega, by omega⟩
  obtain ⟨m, hm⟩ := Int.eq_ofNat_of_zero_le hxshift
  obtain ⟨n, hn⟩ := Int.eq_ofNat_of_zero_le hyshift
  have hscaled : x.coefficient * 10 ^ m = y.coefficient * 10 ^ n := by
    have hten : (10 : ℚ) ≠ 0 := by norm_num
    have hcast : (x.coefficient : ℚ) * 10 ^ m = y.coefficient * 10 ^ n := by
      rw [← zpow_natCast, ← zpow_natCast, ← hm, ← hn, zpow_add₀ hten, zpow_add₀ hten, ← mul_assoc,
        ← mul_assoc, hmagnitude]
    exact_mod_cast hcast
  obtain ⟨hcoefficient, hexponent⟩ := scaled_injective (.inr hx) (.inr hy) hscaled
  exact PyDecimal.ext hsign hcoefficient (by omega)

theorem Normal.eq_of_value (hx : x.Normal) (hy : y.Normal) (hsign : x.negative = y.negative)
    (h : x.value = y.value) : x = y := by
  have hzero : x.coefficient = 0 ↔ y.coefficient = 0 := by rw [← value_eq_zero, ← value_eq_zero, h]
  rcases hx with ⟨hxzero, hxexponent⟩ | hxlast
  · rcases hy with ⟨hyzero, hyexponent⟩ | hylast
    · exact PyDecimal.ext hsign (hxzero.trans hyzero.symm) (hxexponent.trans hyexponent.symm)
    · exact absurd (hzero.mp hxzero ▸ dvd_zero 10) hylast
  · rcases hy with ⟨hyzero, -⟩ | hylast
    · exact absurd (hzero.mpr hyzero ▸ dvd_zero 10) hxlast
    · exact PyDecimal.eq_of_value hxlast hylast h

theorem normalize_eq_some (h : d.normalize = some n) :
    ∃ fixed, d.fix = some fixed ∧ n.value = fixed.value ∧ n.negative = fixed.negative := by
  unfold normalize at h
  obtain ⟨fixed, hfixed, rfl⟩ := Option.map_eq_some_iff.mp h
  refine ⟨fixed, hfixed, ?_⟩
  split
  · next hzero =>
    refine ⟨?_, rfl⟩
    rw [value_eq_zero.mpr hzero]
    exact value_eq_zero.mpr rfl
  · next hpos =>
    obtain ⟨-, zeros, hvalue, hexponent⟩ :=
      strip_spec (Nat.pos_of_ne_zero hpos) fixed.lt_pow_length (fix_bound hfixed)
    refine ⟨?_, rfl⟩
    unfold value
    simp only
    rw [hexponent, zpow_add₀ (by norm_num), zpow_natCast]
    conv_rhs => rw [hvalue]
    push_cast
    ring

theorem normalize_of_fix {m : PyDecimal} (hx : x.fix = some m) (hy : y.fix = some n)
    (hsign : m.negative = n.negative) (h : m.value = n.value) : x.normalize = y.normalize := by
  obtain ⟨m', hm'⟩ : ∃ m', x.normalize = some m' := by
    unfold normalize
    rw [hx]
    exact ⟨_, rfl⟩
  obtain ⟨n', hn'⟩ : ∃ n', y.normalize = some n' := by
    unfold normalize
    rw [hy]
    exact ⟨_, rfl⟩
  obtain ⟨_, hfixed, hmvalue, hmsign⟩ := normalize_eq_some hm'
  obtain rfl := Option.some.inj (hx.symm.trans hfixed)
  obtain ⟨_, hfixed, hnvalue, hnsign⟩ := normalize_eq_some hn'
  obtain rfl := Option.some.inj (hy.symm.trans hfixed)
  rw [hm', hn', (normal_of_normalize hm').eq_of_value (normal_of_normalize hn')
    (hmsign.trans (hsign.trans hnsign.symm)) (hmvalue.trans (h.trans hnvalue.symm))]

/-! ## Trailing zeros -/

/-- The same number with more trailing zeros -/
def padded (d : PyDecimal) (zeros : Nat) : PyDecimal :=
  { d with
    coefficient := d.coefficient * 10 ^ zeros
    exponent := d.exponent - zeros }

theorem value_padded (d : PyDecimal) (zeros : Nat) : (d.padded zeros).value = d.value := by
  have hten : (10 : ℚ) ≠ 0 := by norm_num
  unfold value padded
  simp only
  rw [zpow_sub₀ hten, zpow_natCast]
  push_cast
  field_simp

theorem length_padded (hd : d.coefficient ≠ 0) (zeros : Nat) :
    (d.padded zeros).length = d.length + zeros := by
  unfold length padded
  simp only
  induction zeros with
  | zero => simp
  | succ zeros ih =>
    have hpos : 0 < d.coefficient * 10 ^ zeros :=
      Nat.mul_pos (Nat.pos_of_ne_zero hd) (Nat.pow_pos (by decide))
    have hstep : d.coefficient * 10 ^ (zeros + 1) = 10 * (d.coefficient * 10 ^ zeros) + 0 := by
      rw [pow_succ]
      ring
    rw [hstep, ← Nat.toDigits_append_toDigits (by decide) hpos (by decide), List.length_append, ih]
    rfl

theorem roundHalfEven_padded (coefficient drop zeros : Nat) :
    roundHalfEven (coefficient * 10 ^ zeros) (drop + zeros) = roundHalfEven coefficient drop := by
  have hpos : 0 < 10 ^ zeros := Nat.pow_pos (by decide)
  unfold roundHalfEven
  simp only
  rw [pow_add, Nat.mul_div_mul_right _ _ hpos, Nat.mul_mod_mul_right, ← Nat.mul_assoc]
  simp only [Nat.mul_lt_mul_right hpos, Nat.mul_left_inj hpos.ne']

theorem roundHalfEven_exact {drop : Nat} :
    roundHalfEven (coefficient * 10 ^ drop) drop = coefficient := by
  have hpos : 0 < 10 ^ drop := Nat.pow_pos (by decide)
  unfold roundHalfEven
  simp only
  rw [Nat.mul_div_cancel _ hpos, Nat.mul_mod_left, if_neg (by omega)]

theorem normalize_padded (hd : d.coefficient ≠ 0) (zeros : Nat) :
    (d.padded zeros).normalize = d.normalize := by
  have hlength := length_padded hd zeros
  have hexponent : (d.padded zeros).exponent = d.exponent - zeros := rfl
  have hsum : (d.padded zeros).length + (d.padded zeros).exponent = d.length + d.exponent := by
    rw [hlength, hexponent]
    push_cast
    ring
  have hleast : (d.padded zeros).exponentLeast = d.exponentLeast := by
    unfold exponentLeast
    rw [hsum]
  by_cases htop : exponentTop < d.length + d.exponent - precision
  · unfold normalize fix
    rw [hsum, if_pos htop, if_pos htop]
  · by_cases hround : d.exponent < d.exponentLeast
    · -- Both are rounded, and the zeros are among the digits that are dropped.
      have hsame : (d.padded zeros).roundTo d.exponentLeast = d.roundTo d.exponentLeast := by
        have hdrop : (d.exponentLeast - (d.padded zeros).exponent).toNat =
            (d.exponentLeast - d.exponent).toNat + zeros := by
          rw [hexponent]
          omega
        unfold roundTo
        rw [hdrop]
        simp only [padded, roundHalfEven_padded]
      have hfix : (d.padded zeros).fix = d.fix := by
        unfold fix
        rw [hsum, hleast, hsame, if_neg htop, if_neg htop, if_pos hround,
          if_pos (by rw [hexponent]; omega)]
      unfold normalize
      rw [hfix]
    · have hfix : d.fix = some d := by
        unfold fix
        rw [if_neg htop, if_neg hround]
      by_cases hpadded : (d.padded zeros).exponent < d.exponentLeast
      · -- Only zeros are dropped, as many as leave the least exponent.
        rw [hexponent] at hpadded
        obtain ⟨kept, hkept⟩ := Int.eq_ofNat_of_zero_le (a := d.exponent - d.exponentLeast) (by omega)
        obtain ⟨dropped, rfl⟩ : ∃ dropped, zeros = kept + dropped :=
          ⟨zeros - kept, by omega⟩
        have hdrop : (d.exponentLeast - (d.padded (kept + dropped)).exponent).toNat = dropped := by
          rw [hexponent]
          omega
        have hsmall : ¬ 10 ^ precision ≤ d.coefficient * 10 ^ kept := by
          have hlt : d.coefficient * 10 ^ kept < 10 ^ (d.length + kept) := by
            rw [pow_add]
            exact Nat.mul_lt_mul_of_pos_right d.lt_pow_length (Nat.pow_pos (by decide))
          have hle : d.length + kept ≤ precision := by
            unfold exponentLeast at hkept
            omega
          exact not_le.mpr (hlt.trans_le (Nat.pow_le_pow_right (by decide) hle))
        have hrounded : (d.padded (kept + dropped)).roundTo d.exponentLeast = d.padded kept := by
          have hvalue : (d.padded (kept + dropped)).coefficient =
              d.coefficient * 10 ^ kept * 10 ^ dropped := by
            show d.coefficient * 10 ^ (kept + dropped) = _
            rw [pow_add, Nat.mul_assoc]
          unfold roundTo
          rw [hdrop, hvalue, roundHalfEven_exact]
          unfold carry
          rw [if_neg hsmall]
          show (⟨d.negative, _, d.exponentLeast⟩ : PyDecimal) = ⟨d.negative, _, d.exponent - kept⟩
          rw [show d.exponent - kept = d.exponentLeast by omega]
        have hfix' : (d.padded (kept + dropped)).fix = some (d.padded kept) := by
          have htopLeast : ¬ exponentTop < (d.padded kept).exponent := by
            have hlow : exponentTiny < exponentTop := by decide
            show ¬ exponentTop < d.exponent - kept
            unfold exponentLeast at hkept
            omega
          unfold fix
          rw [hsum, hleast, hrounded, if_neg htop, if_pos (by rw [hexponent]; exact hpadded),
            if_neg htopLeast]
        exact normalize_of_fix hfix' hfix rfl (value_padded d kept)
      · have hfix' : (d.padded zeros).fix = some (d.padded zeros) := by
          unfold fix
          rw [hsum, hleast, if_neg htop, if_neg hpadded]
        exact normalize_of_fix hfix' hfix rfl (value_padded d zeros)

/-! ## Short decimals -/

theorem eq_padded (hx : x.coefficient ≠ 0) (hle : y.exponent ≤ x.exponent)
    (h : x.value = y.value) : y = x.padded (x.exponent - y.exponent).toNat := by
  have hten : (10 : ℚ) ≠ 0 := by norm_num
  have hexponent : (x.padded (x.exponent - y.exponent).toNat).exponent = y.exponent := by
    show x.exponent - ((x.exponent - y.exponent).toNat : Int) = y.exponent
    omega
  have hpadded : (x.padded (x.exponent - y.exponent).toNat).coefficient ≠ 0 :=
    Nat.mul_ne_zero hx (Nat.pow_pos (by decide)).ne'
  obtain ⟨hsign, hmagnitude⟩ := magnitude_of_value hpadded
    ((value_padded x (x.exponent - y.exponent).toNat).trans h)
  rw [hexponent] at hmagnitude
  have hcoefficient := mul_right_cancel₀ (zpow_ne_zero _ hten) hmagnitude
  have hcoefficient : (x.padded (x.exponent - y.exponent).toNat).coefficient = y.coefficient := by
    exact_mod_cast hcoefficient
  exact PyDecimal.ext hsign.symm hcoefficient.symm hexponent.symm

theorem rounded_of_value (h : x.value = y.value) : x.rounded = y.rounded := by
  have hzero : x.coefficient = 0 ↔ y.coefficient = 0 := by rw [← value_eq_zero, ← value_eq_zero, h]
  unfold rounded
  by_cases hx : x.coefficient = 0
  · rw [if_pos hx, if_pos (hzero.mp hx)]
  · have hy : y.coefficient ≠ 0 := fun hy => hx (hzero.mpr hy)
    rw [if_neg hx, if_neg hy]
    rcases le_total y.exponent x.exponent with hle | hle
    · rw [eq_padded hx hle h, normalize_padded hx]
    · rw [eq_padded hy hle h.symm, normalize_padded hy]

/-- A decimal that the context holds as it is: with few enough digits, and an exponent in range -/
def Short (d : PyDecimal) : Prop :=
  d.length ≤ precision ∧ exponentTiny ≤ d.exponent ∧ d.length + d.exponent ≤ exponentMax + 1

theorem Short.rounded (hd : d.Short) : ∃ n, d.rounded = some n ∧ n.value = d.value := by
  obtain ⟨hlength, htiny, hmax⟩ := hd
  unfold PyDecimal.rounded
  split
  · next hzero =>
    refine ⟨_, rfl, ?_⟩
    rw [value_eq_zero.mpr hzero]
    exact value_eq_zero.mpr rfl
  · have hfix : d.fix = some d := by
      have htop : exponentTop + precision = exponentMax + 1 := by decide
      unfold fix exponentLeast
      rw [if_neg (by omega), if_neg (by omega)]
    obtain ⟨n, hn⟩ : ∃ n, d.normalize = some n := by
      unfold normalize
      rw [hfix]
      exact ⟨_, rfl⟩
    obtain ⟨_, hfixed, hvalue, -⟩ := normalize_eq_some hn
    obtain rfl := Option.some.inj (hfix.symm.trans hfixed)
    exact ⟨n, hn, hvalue⟩

end PyDecimal

end Domain
