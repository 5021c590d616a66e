-- SUMMARY: Exact money amounts in cents, their currency, and the decimal texts money is rendered as.
import SiraSeil.Domain.Values

/-!
# Money

`Money` holds a non-negative decimal with at most two places. `quantize` runs in
a context of 28 digits, so an amount is a number of cents below `10 ^ 28`.
-/

namespace Domain

/-- `_CURRENCY`: three upper-case letters. -/
def isCurrency (s : String) : Bool :=
  decide (s.toList.length = 3) && s.toList.all Char.isUpper

theorem isCurrency_usd : isCurrency "USD" = true := by decide

theorem thousand_cents_lt : 1000 < 10 ^ 28 := by decide

structure Money where
  cents : Nat
  currency : String
  cents_lt : cents < 10 ^ 28 := by decide
  currency_ok : isCurrency currency = true := by decide
  deriving DecidableEq

namespace Money

/-- The decimal amount. -/
def amount (m : Money) : ℚ := (m.cents : ℚ) / 100

/-- `Money(amount, currency)` on a non-negative amount of whole cents. -/
def new (cents : Nat) (currency : String) : Py Money :=
  if hc : cents < 10 ^ 28 then
    if hk : isCurrency currency = true then .ok ⟨cents, currency, hc, hk⟩
    else .error (.domainValidation "currency must be a three-letter ISO code")
  else .error .invalidOperation

/-- Two decimal digits. -/
def twoDigits (n : Nat) : String :=
  if n < 10 then "0" ++ toString n else toString n

/-- `format(amount, ".2f")` -/
def fixedText (m : Money) : String :=
  toString (m.cents / 100) ++ "." ++ twoDigits (m.cents % 100)

/-- `Money.to_dict` -/
def toValue (m : Money) : Value :=
  .obj [("amount", .str m.fixedText), ("currency", .str m.currency)]

/-- `Decimal.normalize`: the coefficient without its trailing zeros, and how many
    were removed. -/
def stripZeros : Nat → Nat → Nat × Nat
  | 0, c => (c, 0)
  | fuel + 1, c =>
    if c % 10 = 0 then
      let (c', k) := stripZeros fuel (c / 10)
      (c', k + 1)
    else (c, 0)

/-- `str(amount)`: plain digits unless the normalized exponent is positive. -/
def amountText (m : Money) : String :=
  if m.cents = 0 then "0"
  else
    let (c, k) := stripZeros 28 m.cents
    let digits := toString c
    match k with
    | 0 => m.fixedText
    | 1 => toString (c / 10) ++ "." ++ toString (c % 10)
    | 2 => digits
    | k + 3 =>
      -- A positive exponent switches to scientific notation, as in `1E+2`.
      let fraction := digits.toList.drop 1
      String.ofList (digits.toList.take 1) ++
        (if fraction.isEmpty then "" else "." ++ String.ofList fraction) ++
        "E+" ++ toString (k + 1 + fraction.length)

end Money

end Domain
