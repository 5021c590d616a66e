-- SUMMARY: The total of an offer in decimal arithmetic: the check on rounded sums accepts exactly the offers whose cents add up.
import SiraSeil.Domain.DecimalArithmetic
import SiraSeil.Domain.ExchangeContracts

/-!
# Offer totals

`validate_offer` multiplies each unit price by its quantity and adds the products up,
each time in the default context, and compares the result with the total. Quantities
have no bound, so products and sums may be rounded. What is rounded has reached
`10^18`, which no total does, and rounding does not bring it below.
-/

namespace Domain

open PyDecimal

/-! ## The check on decimals -/

/-- The decimals that an offer is written with, however many zeros they end with. -/
structure OfferVersionData.Amounts (o : OfferVersionData) where
  prices : List PyDecimal
  total : PyDecimal
  prices_value : prices.map value = o.lines.map (fun line => (line.unitPrice : ℚ) / 100)
  total_value : total.value = o.total / 100

/-- One line of the sum: its price, its quantity and the sum so far -/
def addSubtotal (acc : PyDecimal) (line : OfferLine × PyDecimal) : Option PyDecimal :=
  (line.2.mul (ofNat line.1.quantity)).bind acc.add

/-- `sum((line.subtotal for line in self.lines), Decimal("0"))` -/
def OfferVersionData.Amounts.sum {o : OfferVersionData} (amounts : o.Amounts) : Option PyDecimal :=
  (o.lines.zip amounts.prices).foldlM addSubtotal (ofNat 0)

/-- `validate_offer` on the decimals, before the offer is hashed -/
def OfferVersionData.validateDecimals (o : OfferVersionData) (amounts : o.Amounts) :
    Exchanged Unit := do
  o.validateTerms
  match amounts.sum with
  | none => throw (.domain .invalidOperation) -- an arithmetic error, which no validator catches
  | some sum =>
    ensure (sum.value == amounts.total.value) "offer total does not equal line-item arithmetic"

/-! ## Rounded amounts -/

/-- A decimal follows an amount in cents: it is the amount while that has at most twenty
    digits, and is as large as any amount beyond. -/
def Follows (d : PyDecimal) (cents : Nat) : Prop :=
  (cents < 10 ^ 20 ∧ d.value = cents / 100) ∨ (10 ^ 20 ≤ cents ∧ (10 : ℚ) ^ 18 ≤ d.value)

theorem Follows.nonneg {d : PyDecimal} {cents : Nat} (h : Follows d cents) : 0 ≤ d.value := by
  rcases h with ⟨-, hvalue⟩ | ⟨-, hlarge⟩
  · rw [hvalue]
    exact div_nonneg (Nat.cast_nonneg _) (by norm_num)
  · exact le_trans (by norm_num) hlarge

theorem Follows.exact {d : PyDecimal} {cents : Nat} (h : Follows d cents) (hsmall : cents < 10 ^ 20) :
    d.value = cents / 100 :=
  (h.resolve_right (fun hlarge => hlarge.1.not_gt hsmall)).2

theorem Follows.eq_of_value {d : PyDecimal} {cents total : Nat} (h : Follows d cents)
    (htotal : total < 10 ^ 20) (hvalue : d.value = total / 100) : cents = total := by
  rcases h with ⟨-, hexact⟩ | ⟨-, hlarge⟩
  · rw [hexact] at hvalue
    have hcents : (cents : ℚ) = total := by linarith
    exact_mod_cast hcents
  · have hsmall : (total : ℚ) < 10 ^ 20 := by exact_mod_cast htotal
    rw [hvalue] at hlarge
    linarith

section Rounding

variable {d r : PyDecimal} {cents : Nat}

theorem Follows.of_exact (hvalue : d.value = cents / 100) (h : d.fixed = some r) :
    Follows r cents := by
  by_cases hsmall : cents < 10 ^ 20
  · obtain ⟨exact, hexact, hkept⟩ := fixed_exact (k := -2) (hvalue.trans (by norm_num; ring))
      (hsmall.trans (by decide)) (by decide) (by decide)
    obtain rfl := Option.some.inj (hexact.symm.trans h)
    exact .inl ⟨hsmall, hkept.trans hvalue⟩
  · have hlarge : (10 : ℚ) ^ 20 ≤ cents := by exact_mod_cast not_lt.mp hsmall
    refine .inr ⟨not_lt.mp hsmall, fixed_large (k := 18) (by decide) ?_ h⟩
    rw [hvalue]
    norm_num
    linarith

theorem exists_fixed_of_exact (hvalue : d.value = cents / 100) (hsmall : cents < 10 ^ 20) :
    ∃ r, d.fixed = some r := by
  obtain ⟨r, hr, -⟩ := fixed_exact (k := -2) (hvalue.trans (by norm_num; ring))
    (hsmall.trans (by decide)) (by decide) (by decide)
  exact ⟨r, hr⟩

theorem Follows.add {acc : PyDecimal} {total : Nat} (hacc : Follows acc total) (hd : Follows d cents)
    (h : acc.add d = some r) : Follows r (total + cents) := by
  have hsum := sum_value acc d
  have hacc_nonneg := hacc.nonneg
  have hd_nonneg := hd.nonneg
  rcases hacc with ⟨-, hacc⟩ | ⟨htotal, hacc⟩
  · rcases hd with ⟨-, hd⟩ | ⟨hcents, hd⟩
    · refine Follows.of_exact ?_ h
      rw [hsum, hacc, hd]
      push_cast
      ring
    · refine .inr ⟨by omega, fixed_large (k := 18) (by decide) ?_ h⟩
      rw [hsum]
      exact hd.trans (le_add_of_nonneg_left hacc_nonneg)
  · refine .inr ⟨by omega, fixed_large (k := 18) (by decide) ?_ h⟩
    rw [hsum]
    exact hacc.trans (le_add_of_nonneg_right hd_nonneg)

end Rounding

/-! ## One line, and all of them -/

section Lines

variable {acc sum price : PyDecimal} {line : OfferLine} {cents : Nat}

theorem product_cents (hprice : price.value = line.unitPrice / 100) :
    (price.product (ofNat line.quantity)).value = (line.subtotal : ℚ) / 100 := by
  rw [product_value, ofNat_value, hprice, OfferLine.subtotal]
  push_cast
  ring

theorem Follows.addSubtotal (hacc : Follows acc cents)
    (hprice : price.value = line.unitPrice / 100) (h : addSubtotal acc (line, price) = some sum) :
    Follows sum (cents + line.subtotal) := by
  obtain ⟨subtotal, hmul, hadd⟩ := Option.bind_eq_some_iff.mp h
  exact hacc.add (Follows.of_exact (product_cents hprice) hmul) hadd

theorem exists_addSubtotal (hacc : Follows acc cents)
    (hprice : price.value = line.unitPrice / 100) (hsmall : cents + line.subtotal < 10 ^ 20) :
    ∃ sum, Domain.addSubtotal acc (line, price) = some sum := by
  have hsubtotal : line.subtotal < 10 ^ 20 := by omega
  obtain ⟨subtotal, hmul⟩ := exists_fixed_of_exact (product_cents hprice) hsubtotal
  have hsum : (acc.sum subtotal).value = ((cents + line.subtotal : Nat) : ℚ) / 100 := by
    rw [sum_value, hacc.exact (by omega),
      (Follows.of_exact (product_cents hprice) hmul).exact hsubtotal]
    push_cast
    ring
  obtain ⟨sum, hadd⟩ := exists_fixed_of_exact hsum hsmall
  exact ⟨sum, Option.bind_eq_some_iff.mpr ⟨subtotal, hmul, hadd⟩⟩

theorem Follows.addLines {lines : List (OfferLine × PyDecimal)} (hacc : Follows acc cents)
    (hprices : ∀ p ∈ lines, p.2.value = (p.1.unitPrice : ℚ) / 100)
    (h : lines.foldlM Domain.addSubtotal acc = some sum) :
    Follows sum (cents + (lines.map (·.1.subtotal)).sum) := by
  induction lines generalizing acc cents with
  | nil =>
    obtain rfl := Option.some.inj h
    simpa using hacc
  | cons p lines ih =>
    obtain ⟨next, hline, hrest⟩ := Option.bind_eq_some_iff.mp h
    have hnext := hacc.addSubtotal (hprices p List.mem_cons_self) hline
    have hsum := ih hnext (fun q hq => hprices q (List.mem_cons_of_mem p hq)) hrest
    simpa [Nat.add_assoc] using hsum

theorem exists_sum {lines : List (OfferLine × PyDecimal)} (hacc : Follows acc cents)
    (hprices : ∀ p ∈ lines, p.2.value = (p.1.unitPrice : ℚ) / 100)
    (hsmall : cents + (lines.map (·.1.subtotal)).sum < 10 ^ 20) :
    ∃ sum, lines.foldlM Domain.addSubtotal acc = some sum := by
  induction lines generalizing acc cents with
  | nil => exact ⟨acc, rfl⟩
  | cons p lines ih =>
    rw [List.map_cons, List.sum_cons] at hsmall
    have hprice := hprices p List.mem_cons_self
    obtain ⟨next, hline⟩ := exists_addSubtotal hacc hprice (by omega)
    obtain ⟨sum, hsum⟩ := ih (hacc.addSubtotal hprice hline)
      (fun q hq => hprices q (List.mem_cons_of_mem p hq)) (by omega)
    exact ⟨sum, Option.bind_eq_some_iff.mpr ⟨next, hline, hsum⟩⟩

end Lines

/-! ## Offers -/

section Offers

variable {o : OfferVersionData}

theorem OfferVersionData.Amounts.length_eq (amounts : o.Amounts) :
    o.lines.length = amounts.prices.length := by
  simpa using (congrArg List.length amounts.prices_value).symm

theorem OfferVersionData.Amounts.price_value (amounts : o.Amounts) :
    ∀ p ∈ o.lines.zip amounts.prices, p.2.value = (p.1.unitPrice : ℚ) / 100 := by
  have hzip : (o.lines.zip amounts.prices).map (fun p => p.2.value) =
      (o.lines.zip amounts.prices).map (fun p => (p.1.unitPrice : ℚ) / 100) := by
    calc (o.lines.zip amounts.prices).map (fun p => p.2.value)
        = ((o.lines.zip amounts.prices).map Prod.snd).map value := by rw [List.map_map]; rfl
      _ = amounts.prices.map value := by rw [List.map_snd_zip amounts.length_eq.ge]
      _ = o.lines.map (fun line => (line.unitPrice : ℚ) / 100) := amounts.prices_value
      _ = ((o.lines.zip amounts.prices).map Prod.fst).map (fun line => (line.unitPrice : ℚ) / 100) := by
          rw [List.map_fst_zip amounts.length_eq.le]
      _ = _ := by rw [List.map_map]; rfl
  exact List.map_inj_left.mp hzip

theorem OfferVersionData.Amounts.subtotals (amounts : o.Amounts) :
    (o.lines.zip amounts.prices).map (·.1.subtotal) = o.lines.map OfferLine.subtotal := by
  conv_rhs => rw [← List.map_fst_zip amounts.length_eq.le, List.map_map]
  rfl

theorem OfferVersionData.total_lt (h : o.validateTerms = .ok ()) : o.total < 10 ^ 20 := by
  unfold OfferVersionData.validateTerms at h
  simp only [Raising.check_bind_eq_ok, ensure_eq_ok, Bool.and_eq_true] at h
  exact of_decide_eq_true h.1.1.1.2

/-- The check on decimals accepts an offer exactly when its other terms are valid and its
    cents add up. -/
theorem validateDecimals_exact (o : OfferVersionData) (amounts : o.Amounts) :
    o.validateDecimals amounts = .ok () ↔
      o.validateTerms = .ok () ∧ (o.lines.map OfferLine.subtotal).sum = o.total := by
  unfold OfferVersionData.validateDecimals
  rw [Raising.check_bind_eq_ok]
  refine and_congr_right fun hterms => ?_
  have htotal := OfferVersionData.total_lt hterms
  have hzero : Follows (ofNat 0) 0 := .inl ⟨by decide, by simp⟩
  constructor
  · intro h
    cases hsum : amounts.sum with
    | none => simp [hsum] at h
    | some sum =>
      have hfollows := hzero.addLines amounts.price_value hsum
      rw [amounts.subtotals, Nat.zero_add] at hfollows
      rw [hsum] at h
      have hequal := ensure_eq_ok.mp h
      exact hfollows.eq_of_value htotal ((beq_iff_eq.mp hequal).trans amounts.total_value)
  · intro hcents
    have hsmall : 0 + ((o.lines.zip amounts.prices).map (·.1.subtotal)).sum < 10 ^ 20 := by
      rw [amounts.subtotals, hcents]
      omega
    obtain ⟨sum, hsum⟩ := exists_sum hzero amounts.price_value hsmall
    have hfollows := hzero.addLines amounts.price_value hsum
    rw [amounts.subtotals, Nat.zero_add, hcents] at hfollows
    have hexact := hfollows.exact htotal
    have hrun : amounts.sum = some sum := hsum
    rw [hrun]
    exact ensure_eq_ok.mpr (beq_iff_eq.mpr (hexact.trans amounts.total_value.symm))

end Offers

end Domain
