-- SUMMARY: Reading a text as a decimal: the grammar of Decimal(text), the limits of its exponents, and that a number printed with two places is read as it was.
import SiraSeil.Domain.Quantize
import SiraSeil.Domain.Values
import SiraSeil.Library.Raising

/-!
# Decimal texts

`Decimal(text)` drops white space at the ends and underscores anywhere, takes the decimal
digits of every script, and raises `InvalidOperation` for what is not a number and for
exponents beyond the limits of the implementation.
-/

namespace Domain

/-- What the Unicode tables say about characters outside ASCII. -/
structure Unicode where
  /-- `unicodedata.decimal` -/
  decimal : Char → Option Nat
  /-- `str.upper` of one character -/
  upper : Char → List Char

/-- `str.upper` -/
def Unicode.upperText (unicode : Unicode) (text : String) : String :=
  String.ofList (text.toList.flatMap (fun c => if c.toNat ≤ 127 then [c.toUpper] else unicode.upper c))

/-- A `Decimal`: a finite one, or a special value -/
inductive PyNumber
  | finite (d : PyDecimal)
  | infinity (negative : Bool)
  | nan (signaling : Bool)
  deriving DecidableEq

namespace PyNumber

/-! ## Characters -/

/-- `numeric_as_ascii`: one character, which white space inside a number never is -/
def asciiChar (unicode : Unicode) (c : Char) : Option Char :=
  if 0 < c.toNat ∧ c.toNat ≤ 127 then some c
  else if isSpace c then some ' '
  else (unicode.decimal c).map Nat.digitChar

/-- `numeric_as_ascii`: the text without white space at its ends and without underscores -/
def asciiText (unicode : Unicode) (text : String) : Option (List Char) :=
  ((strip text).toList.filter (· ≠ '_')).mapM (asciiChar unicode)

/-! ## Grammar -/

/-- `[sign]` -/
def sign : List Char → Bool × List Char
  | '-' :: rest => (true, rest)
  | '+' :: rest => (false, rest)
  | rest => (false, rest)

/-- `[indicator [sign] digits]` -/
def exponentPart : List Char → Option Int
  | [] => some 0
  | c :: rest =>
    let digits := (sign rest).2
    if (c = 'e' ∨ c = 'E') ∧ digits ≠ [] ∧ digits.all Char.isDigit = true then
      some ((if (sign rest).1 then -1 else 1) * Nat.ofDigitChars 10 digits 0)
    else none

/-- The digits behind the point, and what follows them -/
def fractionPart : List Char → List Char × List Char
  | '.' :: rest => (rest.takeWhile Char.isDigit, rest.dropWhile Char.isDigit)
  | rest => ([], rest)

/-- `decimal-part [exponent-part]` -/
def numericValue (negative : Bool) (text : List Char) : Option PyDecimal :=
  let whole := text.takeWhile Char.isDigit
  let (fraction, rest) := fractionPart (text.dropWhile Char.isDigit)
  if whole = [] ∧ fraction = [] then none
  else (exponentPart rest).map (fun exponent =>
    ⟨negative, Nat.ofDigitChars 10 (whole ++ fraction) 0, exponent - fraction.length⟩)

/-- `infinity` -/
def isInfinity (text : List Char) : Bool :=
  let lower := text.map Char.toLower
  lower == "inf".toList || lower == "infinity".toList

/-- `snan` starts with a letter more than `nan`. -/
def isSignaling (text : List Char) : Bool :=
  decide ((text.map Char.toLower).head? = some 's')

/-- `nan` -/
def isNan (text : List Char) : Bool :=
  let lower := text.map Char.toLower
  let quiet := if isSignaling text then lower.drop 1 else lower
  "nan".toList.isPrefixOf quiet && (quiet.drop 3).all Char.isDigit

/-! ## Limits -/

/-- `MAX_EMAX` -/
def maxEmax : Int := 999999999999999999

/-- `MIN_ETINY` -/
def minEtiny : Int := -1999999999999999997

/-- A decimal that the implementation can hold -/
def inLimits (d : PyDecimal) : Bool :=
  decide (minEtiny ≤ d.exponent) &&
    decide ((if d.coefficient = 0 then d.exponent else d.adjusted) ≤ maxEmax)

/-- `Decimal(text)`; none where it raises `InvalidOperation` -/
def ofText (unicode : Unicode) (text : String) : Option PyNumber := do
  let ascii ← asciiText unicode text
  let (negative, unsigned) := sign ascii
  if isInfinity unsigned then return .infinity negative
  if isNan unsigned then return .nan (isSignaling unsigned)
  let d ← numericValue negative unsigned
  if inLimits d then return .finite d
  none

/-! ## Sums -/

/-- What decimal arithmetic raises -/
inductive Signal
  | invalidOperation
  | overflow
  deriving DecidableEq, Repr

/-- `__add__` in the default context -/
def add : PyNumber → PyNumber → Except Signal PyNumber
  | .nan true, _ => .error .invalidOperation
  | _, .nan true => .error .invalidOperation
  | .nan false, _ => .ok (.nan false)
  | _, .nan false => .ok (.nan false)
  | .infinity s, .infinity t => if s = t then .ok (.infinity s) else .error .invalidOperation
  | .infinity s, .finite _ => .ok (.infinity s)
  | .finite _, .infinity t => .ok (.infinity t)
  | .finite x, .finite y =>
    match x.add y with
    | some sum => .ok (.finite sum)
    | none => .error .overflow

theorem add_eq_finite {x y : PyNumber} {sum : PyDecimal} :
    add x y = .ok (.finite sum) ↔ ∃ d e, x = .finite d ∧ y = .finite e ∧ d.add e = some sum := by
  constructor
  · intro h
    unfold add at h
    split at h
    all_goals try cases h
    · split at h <;> cases h
    · next d e =>
      refine ⟨d, e, rfl, rfl, ?_⟩
      split at h
      · next s hs =>
        cases h
        exact hs
      · cases h
  · rintro ⟨d, e, rfl, rfl, hsum⟩
    simp [add, hsum]

/-- The sum of finite numbers, one after the other -/
def finiteSum (start : PyDecimal) (ds : List PyDecimal) : Option PyDecimal :=
  ds.foldlM PyDecimal.add start

theorem foldlM_add_eq_finite {ns : List PyNumber} {start : PyNumber} {sum : PyDecimal} :
    ns.foldlM add start = .ok (.finite sum) ↔
      ∃ d ds, start = .finite d ∧ ns = ds.map .finite ∧ finiteSum d ds = some sum := by
  induction ns generalizing start with
  | nil =>
    constructor
    · intro h
      cases h
      exact ⟨sum, [], rfl, rfl, rfl⟩
    · rintro ⟨d, ds, rfl, hds, hsum⟩
      obtain rfl := List.map_eq_nil_iff.mp hds.symm
      cases hsum
      rfl
  | cons n ns ih =>
    rw [List.foldlM_cons]
    constructor
    · intro h
      obtain ⟨next, hnext, hrest⟩ := Raising.bind_eq_ok.mp h
      obtain ⟨d, ds, rfl, rfl, hsum⟩ := ih.mp hrest
      obtain ⟨e, f, rfl, rfl, hadd⟩ := add_eq_finite.mp hnext
      refine ⟨e, f :: ds, rfl, rfl, ?_⟩
      unfold finiteSum
      rw [List.foldlM_cons, hadd]
      exact hsum
    · rintro ⟨d, ds, rfl, hds, hsum⟩
      cases ds with
      | nil => cases hds
      | cons e ds =>
        obtain ⟨rfl, rfl⟩ := List.cons.inj hds
        unfold finiteSum at hsum
        rw [List.foldlM_cons] at hsum
        obtain ⟨next, hnext, hrest⟩ := Option.bind_eq_some_iff.mp hsum
        rw [add_eq_finite.mpr ⟨d, e, rfl, rfl, hnext⟩]
        exact ih.mpr ⟨next, ds, rfl, rfl, hrest⟩

/-! ## Printed numbers -/

/-- Digits, and more behind a point if there are any -/
def printed (whole fraction : List Char) : List Char :=
  whole ++ (if fraction = [] then [] else '.' :: fraction)

/-- The two parts of a printed number -/
structure Digits (whole fraction : List Char) : Prop where
  whole_ne_nil : whole ≠ []
  whole_digits : ∀ c ∈ whole, c.isDigit = true
  fraction_digits : ∀ c ∈ fraction, c.isDigit = true

theorem toLower_of_isDigit {c : Char} (h : c.isDigit = true) : c.toLower = c := by
  have hrange := Char.isDigit_iff_toNat.mp h
  have hnine : '9'.toNat = 57 := rfl
  have hcode : ¬ (65 ≤ c.toNat ∧ c.toNat ≤ 90) := by omega
  unfold Char.toLower
  split
  · next hupper =>
    exfalso
    apply hcode
    simpa [UInt32.le_iff_toNat_le] using hupper
  · rfl

namespace Digits

variable {whole fraction : List Char} (h : Digits whole fraction)
include h

/-- The code points of `.` and of the digits -/
theorem code {c : Char} (hc : c ∈ printed whole fraction) : 46 ≤ c.toNat ∧ c.toNat ≤ 57 := by
  have hdigit : c.isDigit = true ∨ c = '.' := by
    rcases List.mem_append.mp hc with hwhole | htail
    · exact .inl (h.whole_digits c hwhole)
    · split at htail
      · cases htail
      · exact (List.mem_cons.mp htail).symm.imp_left (h.fraction_digits c)
  rcases hdigit with hdigit | rfl
  · have hrange := Char.isDigit_iff_toNat.mp hdigit
    have hzero : '0'.toNat = 48 := rfl
    have hnine : '9'.toNat = 57 := rfl
    omega
  · decide

theorem isSpace_eq_false {c : Char} (hc : c ∈ printed whole fraction) : isSpace c = false := by
  have hcode := h.code hc
  simp [isSpace]
  omega

theorem asciiText_eq (unicode : Unicode) :
    asciiText unicode (String.ofList (printed whole fraction)) = some (printed whole fraction) := by
  have hspace : ∀ l : List Char, (∀ c ∈ l, c ∈ printed whole fraction) → l.dropWhile isSpace = l := by
    intro l hl
    cases l with
    | nil => rfl
    | cons c l => simp [h.isSpace_eq_false (hl c List.mem_cons_self)]
  have hstrip : (strip (String.ofList (printed whole fraction))).toList = printed whole fraction := by
    simp only [strip, String.toList_ofList]
    rw [hspace _ (fun c hc => hc), hspace _ (fun c hc => List.mem_reverse.mp hc), List.reverse_reverse]
  have hfilter : (printed whole fraction).filter (fun c => decide (c ≠ '_')) = printed whole fraction := by
    refine List.filter_eq_self.mpr (fun c hc => decide_eq_true ?_)
    rintro rfl
    have hcode := h.code hc
    revert hcode
    decide
  have hchars : ∀ l : List Char, (∀ c ∈ l, c ∈ printed whole fraction) →
      l.mapM (asciiChar unicode) = some l := by
    intro l hl
    induction l with
    | nil => rfl
    | cons c l ih =>
      have hcode := h.code (hl c List.mem_cons_self)
      have hchar : asciiChar unicode c = some c := if_pos (by omega)
      simp [hchar, ih (fun x hx => hl x (List.mem_cons_of_mem c hx))]
  unfold asciiText
  rw [hstrip, hfilter]
  exact hchars _ (fun c hc => hc)

theorem exists_head : ∃ c rest, printed whole fraction = c :: rest ∧ c.isDigit = true := by
  obtain ⟨c, rest, rfl⟩ := List.exists_cons_of_ne_nil h.whole_ne_nil
  exact ⟨c, _, rfl, h.whole_digits c List.mem_cons_self⟩

theorem sign_eq : sign (printed whole fraction) = (false, printed whole fraction) := by
  obtain ⟨c, rest, htext, hdigit⟩ := h.exists_head
  rw [htext]
  unfold sign
  split
  · next hminus =>
    cases hminus
    cases hdigit
  · next hplus =>
    cases hplus
    cases hdigit
  · rfl

theorem not_special :
    isInfinity (printed whole fraction) = false ∧ isNan (printed whole fraction) = false := by
  obtain ⟨c, rest, htext, hdigit⟩ := h.exists_head
  have hletter : ∀ letter : Char, letter.isDigit = false → c ≠ letter := by
    rintro letter hletter rfl
    simp [hdigit] at hletter
  have hs := hletter 's' (by decide)
  have hi := hletter 'i' (by decide)
  have hn := hletter 'n' (by decide)
  rw [htext]
  constructor
  · simp [isInfinity, toLower_of_isDigit hdigit, hi]
  · simp [isNan, isSignaling, toLower_of_isDigit hdigit, hs, hn.symm]

/-- A printed number is read as its digits, with as many behind the point as stand there. -/
theorem numericValue_eq (negative : Bool) : numericValue negative (printed whole fraction) =
    some ⟨negative, Nat.ofDigitChars 10 (whole ++ fraction) 0, -fraction.length⟩ := by
  have hpoint : Char.isDigit '.' = false := by decide
  -- the digits end at the point, or with the text
  have hparts : (printed whole fraction).takeWhile Char.isDigit = whole ∧
      fractionPart ((printed whole fraction).dropWhile Char.isDigit) = (fraction, []) := by
    unfold printed
    rw [List.takeWhile_append_of_pos h.whole_digits, List.dropWhile_append_of_pos h.whole_digits]
    split
    · next hnil =>
      subst hnil
      simp [fractionPart]
    · simp only [hpoint, List.takeWhile_cons, List.dropWhile_cons, fractionPart]
      simp [List.takeWhile_eq_self_iff.mpr h.fraction_digits,
        List.dropWhile_eq_nil_iff.mpr h.fraction_digits]
  unfold numericValue
  simp only [hparts]
  rw [if_neg (fun hnil => h.whole_ne_nil hnil.1)]
  simp [exponentPart]

end Digits

/-- A number without a positive exponent is printed with its digits and perhaps a point. -/
theorem exists_printed {d : PyDecimal} (hexponent : d.exponent ≤ 0) :
    ∃ whole fraction, Digits whole fraction ∧ d.body = printed whole fraction := by
  have hdigits : ∀ c ∈ Nat.toDigits 10 d.coefficient, c.isDigit = true :=
    fun c hc => Nat.isDigit_of_mem_toDigits (by decide) (by decide) hc
  have hlength : 0 < d.length := Nat.length_toDigits_pos
  have hzero : ∀ c ∈ ['0'], c.isDigit = true := by simp
  unfold PyDecimal.body
  simp only
  rw [if_neg (show ¬ (d.length : Int) < d.length + d.exponent by omega)]
  split
  · -- zeros stand behind the point
    refine ⟨['0'], List.replicate (-(d.length + d.exponent)).toNat '0' ++ Nat.toDigits 10 d.coefficient,
      ⟨by simp, hzero, ?_⟩, ?_⟩
    · intro c hc
      rcases List.mem_append.mp hc with hpad | hc
      · rw [List.eq_of_mem_replicate hpad]
        decide
      · exact hdigits c hc
    · simp [printed, Nat.toDigits_ne_nil]
  · refine ⟨if (Nat.toDigits 10 d.coefficient).take (d.length + d.exponent).toNat = [] then ['0']
        else (Nat.toDigits 10 d.coefficient).take (d.length + d.exponent).toNat,
      (Nat.toDigits 10 d.coefficient).drop (d.length + d.exponent).toNat, ⟨?_, ?_, ?_⟩, rfl⟩
    · split
      · simp
      · assumption
    · split
      · exact hzero
      · exact fun c hc => hdigits c (List.mem_of_mem_take hc)
    · exact fun c hc => hdigits c (List.mem_of_mem_drop hc)

theorem ofText_body (unicode : Unicode) {d : PyDecimal} (hsign : d.negative = false)
    (hexponent : d.exponent ≤ 0) (hlimits : inLimits d = true) :
    ofText unicode (String.ofList d.body) = some (.finite d) := by
  obtain ⟨whole, fraction, hparts, hbody⟩ := exists_printed hexponent
  have hvalue : numericValue false (printed whole fraction) = some d := by
    have hreading := PyDecimal.reading_body d
    have hwhole : ∀ c ∈ whole, c ≠ '.' := by
      rintro c hc rfl
      exact absurd (hparts.whole_digits _ hc) (by decide)
    have hread : PyDecimal.reading (printed whole fraction) =
        (Nat.ofDigitChars 10 (whole ++ fraction) 0, fraction.length) := by
      unfold printed
      split
      · next hnil =>
        subst hnil
        simpa using PyDecimal.reading_whole hwhole
      · exact PyDecimal.reading_point hwhole fraction
    rw [hbody, hread, Prod.mk.injEq, Int.toNat_of_nonpos hexponent, pow_zero, Nat.mul_one] at hreading
    rw [hparts.numericValue_eq, hreading.1, hreading.2]
    refine congrArg some (PyDecimal.ext hsign.symm rfl ?_)
    simp only
    omega
  unfold ofText
  rw [hbody, hparts.asciiText_eq]
  simp [hparts.sign_eq, hparts.not_special, hvalue, hlimits]

end PyNumber

end Domain
