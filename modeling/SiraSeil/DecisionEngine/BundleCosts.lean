-- SUMMARY: Which errors of the single offers the check of a bundle's combined cost misses: those that offset each other.
import SiraSeil.DecisionEngine.SetOrder
import Mathlib.Algebra.Order.BigOperators.Group.List

/-!
# Bundle costs

`_valid_cost` sees a bundle only as the combined cost of its offers. A fee too
many in one offer and one too few in another, or two totals off in opposite
directions, cancel out in the sum; the currencies of line items are not compared
at all. Apart from that the check decides every single offer.
-/

namespace DecisionEngine

open Domain Raising

/-! ## Deviations that cancel out -/

theorem all_zero_iff_no_opposite {α : Type*} {deviation : α → ℤ} {l : List α}
    (hsum : (l.map deviation).sum = 0) :
    (∀ a ∈ l, deviation a = 0) ↔ ¬ ∃ a ∈ l, ∃ b ∈ l, deviation a < 0 ∧ 0 < deviation b := by
  constructor
  · rintro hzero ⟨a, ha, -, -, hneg, -⟩
    exact absurd (hzero a ha) hneg.ne
  · intro hsame a ha
    have hmem : deviation a ∈ l.map deviation := List.mem_map_of_mem ha
    by_cases hneg : ∃ a ∈ l, deviation a < 0
    · obtain ⟨low, hlow, hneg⟩ := hneg
      -- None is positive, so the lemma applies in the dual order.
      have hall : ∀ x ∈ l.map deviation, x ≤ 0 := by
        intro x hx
        obtain ⟨b, hb, rfl⟩ := List.mem_map.mp hx
        exact not_lt.mp fun hpos => hsame ⟨low, hlow, b, hb, hneg, hpos⟩
      exact List.all_zero_of_le_zero_le_of_sum_eq_zero (M := ℤᵒᵈ) hall hsum hmem
    · have hall : ∀ x ∈ l.map deviation, 0 ≤ x := by
        intro x hx
        obtain ⟨b, hb, rfl⟩ := List.mem_map.mp hx
        exact not_lt.mp fun hlt => hneg ⟨b, hb, hlt⟩
      exact List.all_zero_of_le_zero_le_of_sum_eq_zero hall hsum hmem

/-! ## Offers -/

/-- A bound of an offer with the matching amount of its line items. -/
structure Priced where
  total : OfferCost → Option Money
  part : CostLineItem → Money

def priced : List Priced :=
  [⟨(·.low), (·.low)⟩, ⟨(·.base), (·.base)⟩, ⟨(·.high), (·.high)⟩]

/-- The sum of the line items of an offer, in cents. -/
def Priced.itemCents (field : Priced) (cost : OfferCost) : Nat :=
  (cost.lineItems.map (fun item => (field.part item).cents)).sum

/-- The total of an offer, in cents. -/
def Priced.totalCents (field : Priced) (cost : OfferCost) : Nat :=
  ((field.total cost).map (·.cents)).getD 0

/-- The number of transaction fees an offer lists. -/
def OfferCost.feeLines (cost : OfferCost) : Nat :=
  cost.lineItems.countP (fun item => item.lineItemType = .siraTransactionFee)

/-- An amount of every line item is in the currency of every total of the offer. -/
def OfferCost.OneCurrency (cost : OfferCost) : Prop :=
  ∀ item ∈ cost.lineItems, ∀ field ∈ priced, ∀ other ∈ priced, ∀ total ∈ other.total cost,
    (field.part item).currency = total.currency

/-- Some offer of the bundle lists a line item. -/
def Itemized (costs : List OfferCost) : Prop :=
  ∃ cost ∈ costs, cost.lineItems ≠ []

/-- An offer adds up by itself, as an element of a bundle. -/
structure SoundOffer (costs : List OfferCost) (cost : OfferCost) : Prop where
  totals : Itemized costs → ∀ field ∈ priced, ∃ total, field.total cost = some total ∧
    total.cents = field.itemCents cost
  fee : cost.paymentRequired = true → cost.feeLines = 1
  currency : cost.OneCurrency

/-- No errors of the offers cancel out, and line items are in the currency of their offer. -/
structure NoOffset (costs : List OfferCost) : Prop where
  totals : Itemized costs → ∀ field ∈ priced, ¬ ∃ a ∈ costs, ∃ b ∈ costs,
    field.itemCents a < field.totalCents a ∧ field.totalCents b < field.itemCents b
  fees : ¬ ∃ a ∈ costs, ∃ b ∈ costs, a.paymentRequired = true ∧ a.feeLines = 0 ∧
    b.paymentRequired = true ∧ 1 < b.feeLines
  currency : ∀ cost ∈ costs, cost.OneCurrency

/-! ## What the combined cost keeps -/

/-- The combined cost sums the offers of its bundle. -/
structure Combines (records : List RawCandidateRecord) (costs : List OfferCost)
    (cost : OfferCost) (paymentCount : Nat) : Prop where
  length_eq : costs.length = records.length
  totals : ∀ field ∈ priced, ∀ total, field.total cost = some total →
    (∀ offer ∈ costs, field.total offer ≠ none) ∧
      total.cents = (costs.map field.totalCents).sum
  lineItems : cost.lineItems = costs.flatMap (·.lineItems)
  payment : paymentCount = costs.countP (·.paymentRequired)
  paymentRequired : cost.paymentRequired = decide (0 < paymentCount)

theorem Money.cents_of_new {cents : Nat} {currency : String} {money : Money}
    (h : Money.new cents currency = .ok money) : money.cents = cents := by
  unfold Money.new at h
  split at h
  · split at h
    · cases h
      rfl
    · cases h
  · cases h

theorem sum_of_totals {field : Priced} {costs : List OfferCost} {values : List Money}
    (h : costs.mapM field.total = some values) :
    (∀ offer ∈ costs, field.total offer ≠ none) ∧
      (values.map (·.cents)).sum = (costs.map field.totalCents).sum := by
  induction costs generalizing values with
  | nil =>
    cases h
    exact ⟨fun offer hmem => absurd hmem List.not_mem_nil, rfl⟩
  | cons cost costs ih =>
    rw [List.mapM_cons] at h
    obtain ⟨value, hvalue, h⟩ := Option.bind_eq_some_iff.mp h
    obtain ⟨rest, hrest, h⟩ := Option.bind_eq_some_iff.mp h
    cases h
    obtain ⟨hsome, hsum⟩ := ih hrest
    refine ⟨List.forall_mem_cons.mpr ⟨by simp [hvalue], hsome⟩, ?_⟩
    simp [hsum, Priced.totalCents, hvalue]

theorem Combines.of_bundleCost {rt : Runtime} {records : List RawCandidateRecord}
    {costs : List OfferCost} {cost : OfferCost} {paymentCount : Nat}
    (h : bundleCost rt records costs = .ok (cost, paymentCount, [])) :
    Combines records costs cost paymentCount := by
  have hbounds := (bundleCost_eq_ok h).2
  unfold bundleCost at h
  dsimp only at h
  obtain ⟨hash, -, h⟩ := bind_eq_ok.mp h
  obtain ⟨low, -, h⟩ := bind_eq_ok.mp h
  obtain ⟨base, -, h⟩ := bind_eq_ok.mp h
  obtain ⟨high, -, h⟩ := bind_eq_ok.mp h
  obtain ⟨built, hbuilt, h⟩ := bind_eq_ok.mp h
  obtain ⟨rfl, rfl, hissues⟩ := by
    simpa only [Prod.mk.injEq] using pure_eq_ok.mp h
  have hdata := OfferCost.new_eq_ok hbuilt
  have hlength : costs.length = records.length := by
    by_contra hne
    rw [if_pos hne] at hissues
    cases Sorting.sortedSet_eq_nil.mp hissues
  refine ⟨hlength, ?_, congrArg OfferCostData.lineItems hdata, rfl,
    congrArg OfferCostData.paymentRequired hdata⟩
  intro field hfield total htotal
  have hbound : field.total ∈ costBounds := by
    simp only [priced, costBounds, List.mem_cons, List.not_mem_nil, or_false] at hfield ⊢
    rcases hfield with rfl | rfl | rfl <;> simp
  have hsum := hbounds field.total hbound
  rw [htotal] at hsum
  unfold totalBound at hsum
  rw [if_neg (not_not.mpr hlength)] at hsum
  cases hvalues : costs.mapM field.total with
  | none =>
    rw [hvalues] at hsum
    cases hsum
  | some values =>
    rw [hvalues] at hsum
    obtain ⟨money, hmoney, hsome⟩ := map_eq_ok.mp hsum
    cases hsome
    obtain ⟨hpresent, hcents⟩ := sum_of_totals hvalues
    exact ⟨hpresent, (Money.cents_of_new hmoney).trans hcents⟩

theorem Combines.of_single {record : RawCandidateRecord} (cost : OfferCost) :
    Combines [record] [cost] cost (if cost.paymentRequired then 1 else 0) := by
  refine ⟨rfl, fun field hfield total htotal => ?_, by simp, ?_, ?_⟩
  · simp [Priced.totalCents, htotal]
  · simp [List.countP_cons]
  · cases cost.paymentRequired <;> rfl

theorem Combines.of_combinedCost {rt : Runtime} {records : List RawCandidateRecord}
    {offers : Dict String OfferCost} {cost : OfferCost} {paymentCount : Nat}
    (h : combinedCost rt records offers = .ok (cost, paymentCount, [])) :
    Combines records (records.filterMap (fun r => offers.get? r.offerId)) cost paymentCount := by
  unfold combinedCost at h
  dsimp only at h
  split at h
  · rename_i hcosts
    obtain ⟨rfl, rfl, -⟩ := by
      simpa only [Except.ok.injEq, Prod.mk.injEq] using h
    rw [hcosts]
    exact .of_single _
  · exact .of_bundleCost h

/-! ## What the check of the combined cost requires -/

/-- What `_valid_cost` has checked. -/
structure Checked (cost : OfferCost) (paymentCount : Nat) : Prop where
  totals : ∀ field ∈ priced, ∃ total, field.total cost = some total ∧
    (cost.lineItems ≠ [] → field.itemCents cost = total.cents)
  paying : cost.paymentRequired = true → cost.feeLines = paymentCount
  notPaying : cost.paymentRequired = false → cost.feeLines = 0 ∧ paymentCount = 0

theorem Checked.of_validCost {cost : OfferCost} {paymentCount : Nat} {reasons : List String}
    (h : validCost cost paymentCount = .ok (true, reasons)) : Checked cost paymentCount := by
  unfold validCost at h
  split at h
  case h_2 => cases h
  case h_1 low base high hlow hbase hhigh =>
    obtain ⟨-, -, h⟩ := bind_eq_ok.mp h
    dsimp only at h
    split at h
    · cases pure_eq_ok.mp h
    next hmatch =>
      have hsums : cost.lineItems ≠ [] →
          ∀ checked ∈ [("low", low, fun item : CostLineItem => item.low), ("base", base, (·.base)),
            ("high", high, (·.high))],
            (cost.lineItems.map (fun item => (checked.2.2 item).cents)).sum =
              checked.2.1.cents := by
        intro hitems checked hchecked
        have hnone := Option.eq_none_iff_forall_ne_some.mpr
          fun (found : String × Money × (CostLineItem → Money)) hfound =>
            hmatch found.1 found.2.1 found.2.2 (by simpa using hitems) hfound
        simpa using List.find?_eq_none.mp hnone checked hchecked
      split at h
      · cases pure_eq_ok.mp h
      split at h
      · cases pure_eq_ok.mp h
      next hpaying hnotPaying =>
        refine ⟨?_, ?_, ?_⟩
        · simp only [priced, List.forall_mem_cons, List.not_mem_nil, false_implies, implies_true,
            and_true] at hsums ⊢
          exact ⟨⟨low, hlow, fun hitems => (hsums hitems).1⟩,
            ⟨base, hbase, fun hitems => (hsums hitems).2.1⟩,
            ⟨high, hhigh, fun hitems => (hsums hitems).2.2⟩⟩
        · intro hrequired
          exact not_not.mp fun hne => hpaying ⟨hrequired, hne⟩
        · intro hrequired
          have hnone : ¬ (cost.feeLines ≠ 0 ∨ paymentCount ≠ 0) := fun hsome =>
            hnotPaying ⟨by simp [hrequired], hsome⟩
          exact (not_or.mp hnone).imp not_not.mp not_not.mp

/-! ## The offers of an accepted bundle -/

/-- How far the fees of an offer are from the one it owes. -/
def OfferCost.feeExcess (cost : OfferCost) : ℤ :=
  cost.feeLines - if cost.paymentRequired then 1 else 0

/-- How far the line items of an offer are from its total. -/
def Priced.excess (field : Priced) (cost : OfferCost) : ℤ :=
  field.itemCents cost - field.totalCents cost

theorem OfferCost.feeLines_eq_zero {cost : OfferCost} (h : cost.paymentRequired = false) :
    cost.feeLines = 0 := by
  have hadmitted := cost.admitted
  unfold OfferCostData.postInit at hadmitted
  obtain ⟨-, -, hadmitted⟩ := bind_eq_ok.mp hadmitted
  obtain ⟨-, -, hfees⟩ := bind_eq_ok.mp hadmitted
  have hnone := demand_eq_ok.mp hfees
  rw [h, Bool.false_or, Bool.not_eq_true', List.any_eq_false] at hnone
  refine List.countP_eq_zero.mpr fun item hitem => ?_
  simpa using hnone item hitem

theorem sum_feeExcess (costs : List OfferCost) : (costs.map (·.feeExcess)).sum =
    ((costs.flatMap (·.lineItems)).countP (fun item =>
      item.lineItemType = .siraTransactionFee) : ℤ) - costs.countP (·.paymentRequired) := by
  induction costs with
  | nil => rfl
  | cons cost costs ih =>
    rw [List.map_cons, List.sum_cons, ih, List.flatMap_cons, List.countP_append, List.countP_cons]
    unfold OfferCost.feeExcess OfferCost.feeLines
    push_cast
    omega

theorem Priced.sum_excess (field : Priced) (costs : List OfferCost) :
    (costs.map field.excess).sum =
      (((costs.flatMap (·.lineItems)).map (fun item => (field.part item).cents)).sum : ℤ) -
        (costs.map field.totalCents).sum := by
  induction costs with
  | nil => rfl
  | cons cost costs ih =>
    simp only [List.map_cons, List.sum_cons, ih, List.flatMap_cons, List.map_append,
      List.sum_append]
    unfold Priced.excess Priced.itemCents
    push_cast
    omega

theorem OfferCost.feeExcess_eq_zero {cost : OfferCost} :
    cost.feeExcess = 0 ↔ (cost.paymentRequired = true → cost.feeLines = 1) := by
  unfold OfferCost.feeExcess
  cases hrequired : cost.paymentRequired with
  | false => simp [OfferCost.feeLines_eq_zero hrequired]
  | true =>
    simp only [if_true, forall_const]
    omega

theorem OfferCost.feeExcess_neg {cost : OfferCost} :
    cost.feeExcess < 0 ↔ cost.paymentRequired = true ∧ cost.feeLines = 0 := by
  unfold OfferCost.feeExcess
  cases hrequired : cost.paymentRequired with
  | false => simp
  | true =>
    simp only [if_true, true_and]
    omega

theorem OfferCost.feeExcess_pos {cost : OfferCost} :
    0 < cost.feeExcess ↔ cost.paymentRequired = true ∧ 1 < cost.feeLines := by
  unfold OfferCost.feeExcess
  cases hrequired : cost.paymentRequired with
  | false => simp [OfferCost.feeLines_eq_zero hrequired]
  | true =>
    simp only [if_true, true_and]
    omega

theorem Priced.excess_eq_zero {field : Priced} {cost : OfferCost} (h : field.total cost ≠ none) :
    field.excess cost = 0 ↔
      ∃ total, field.total cost = some total ∧ total.cents = field.itemCents cost := by
  obtain ⟨total, htotal⟩ := Option.ne_none_iff_exists'.mp h
  simp only [Priced.excess, Priced.totalCents, htotal, Option.map_some, Option.getD_some,
    Option.some.injEq, exists_eq_left']
  omega

section

variable {records : List RawCandidateRecord} {costs : List OfferCost} {cost : OfferCost}
  {paymentCount : Nat}

theorem Combines.sum_feeExcess_eq_zero (h : Combines records costs cost paymentCount)
    (hchecked : Checked cost paymentCount) : (costs.map (·.feeExcess)).sum = 0 := by
  have hfees : cost.feeLines = paymentCount := by
    cases hrequired : cost.paymentRequired with
    | false => rw [(hchecked.notPaying hrequired).1, (hchecked.notPaying hrequired).2]
    | true => exact hchecked.paying hrequired
  unfold OfferCost.feeLines at hfees
  rw [h.lineItems, h.payment] at hfees
  rw [sum_feeExcess, hfees, sub_self]

theorem Combines.sum_excess_eq_zero (h : Combines records costs cost paymentCount)
    (hchecked : Checked cost paymentCount) (hitems : Itemized costs) {field : Priced}
    (hfield : field ∈ priced) :
    (∀ offer ∈ costs, field.total offer ≠ none) ∧ (costs.map field.excess).sum = 0 := by
  obtain ⟨total, htotal, hsum⟩ := hchecked.totals field hfield
  obtain ⟨hpresent, hcents⟩ := h.totals field hfield total htotal
  obtain ⟨offer, hoffer, hlisted⟩ := hitems
  have hsome : cost.lineItems ≠ [] := by
    rw [h.lineItems]
    exact fun hnil => hlisted (List.flatMap_eq_nil_iff.mp hnil offer hoffer)
  replace hsum := (hsum hsome).trans hcents
  unfold Priced.itemCents at hsum
  rw [h.lineItems] at hsum
  refine ⟨hpresent, ?_⟩
  rw [Priced.sum_excess, hsum, sub_self]

theorem Combines.sound_iff (h : Combines records costs cost paymentCount)
    (hchecked : Checked cost paymentCount) :
    (∀ offer ∈ costs, SoundOffer costs offer) ↔ NoOffset costs := by
  have hfees := all_zero_iff_no_opposite (h.sum_feeExcess_eq_zero hchecked)
  simp only [OfferCost.feeExcess_eq_zero, OfferCost.feeExcess_neg, OfferCost.feeExcess_pos,
    and_assoc] at hfees
  constructor
  · intro hsound
    refine ⟨?_, hfees.mp fun offer hoffer => (hsound offer hoffer).fee,
      fun offer hoffer => (hsound offer hoffer).currency⟩
    rintro hitems field hfield ⟨low, hlow, -, -, hbelow, -⟩
    obtain ⟨total, htotal, hcents⟩ := (hsound low hlow).totals hitems field hfield
    simp [Priced.totalCents, htotal, hcents] at hbelow
  · intro hoffsets offer hoffer
    refine ⟨fun hitems field hfield => ?_, hfees.mpr hoffsets.fees offer hoffer,
      hoffsets.currency offer hoffer⟩
    obtain ⟨hpresent, hsum⟩ := h.sum_excess_eq_zero hchecked hitems hfield
    refine (Priced.excess_eq_zero (hpresent offer hoffer)).mp ?_
    refine (all_zero_iff_no_opposite hsum).mpr ?_ offer hoffer
    rintro ⟨low, hlow, high, hhigh, hneg, hpos⟩
    exact hoffsets.totals hitems field hfield
      ⟨low, hlow, high, hhigh, by unfold Priced.excess at hneg; omega,
        by unfold Priced.excess at hpos; omega⟩

end

/-! ## Bundles of an input -/

section

variable {rt : Runtime} {input : DecisionGraphInput} {representatives : List RawCandidateRecord}
  {root : RawCandidateRecord} {material : PlanMaterial}

theorem combinedCost_of_packMaterial
    (h : packMaterial rt input (offerIndex rt input) representatives root = .ok material)
    (hissues : material.dependencyIssues = []) :
    combinedCost rt (closure representatives root).1 (offerIndex rt input) =
      .ok (material.cost, material.paymentComponentCount, []) := by
  unfold packMaterial at h
  dsimp only at h
  obtain ⟨⟨cost, paymentCount, issues⟩, hcost, h⟩ := bind_eq_ok.mp h
  simp only [bind_eq_ok, pure_eq_ok] at h
  obtain ⟨_, -, _, -, _, -, rfl⟩ := h
  replace hissues := (List.append_eq_nil_iff.mp (Sorting.sortedSet_eq_nil.mp hissues)).2
  rw [hcost, hissues]

/-- When `_valid_cost` accepts a bundle without issues, every offer in it adds up by itself
    exactly if no errors of its offers offset each other and their line items are in the
    currency of their offers. -/
theorem accepted_offers_sound_iff {reasons : List String}
    (h : packMaterial rt input (offerIndex rt input) representatives root = .ok material)
    (hissues : material.dependencyIssues = [])
    (hvalid : validCost material.cost material.paymentComponentCount = .ok (true, reasons)) :
    (∀ offer ∈ bundleOffers rt input (closure representatives root).1,
      SoundOffer (bundleOffers rt input (closure representatives root).1) offer) ↔
      NoOffset (bundleOffers rt input (closure representatives root).1) :=
  (Combines.of_combinedCost (combinedCost_of_packMaterial h hissues)).sound_iff
    (.of_validCost hvalid)

end

/-! ## A fee listed twice and one left out -/

namespace Sample

def half : Money where
  cents := 500
  currency := "USD"
  currency_ok := isCurrency_usd

def feeOf (amount : Money) : CostLineItem where
  lineItemType := .siraTransactionFee
  low := amount
  base := amount
  high := amount

/-- A paying offer that lists its fee twice. -/
def doubledOffer : OfferCost where
  offerId := "offer_crm"
  low := some money
  base := some money
  high := some money
  horizonDays := 365
  lineItems := [feeOf half, feeOf half]
  paymentRequired := true

/-- A paying offer that lists no fee. -/
def freeOffer : OfferCost where
  offerId := "offer_sso"
  low := some money
  base := some money
  high := some money
  horizonDays := 365
  lineItems := [{ lineItemType := .merchantSubtotal, low := money, base := money, high := money }]
  paymentRequired := true

def offsetInput : DecisionGraphInput :=
  { bundleInput with
    offers := [doubledOffer, freeOffer]
    offers_nodup := by decide +kernel }

end Sample

/-- The bundle has no issue and its cost is accepted. -/
def costAccepted (rt : Runtime) (input : DecisionGraphInput)
    (representatives : List RawCandidateRecord) (root : RawCandidateRecord) : Bool :=
  (packMaterial rt input (offerIndex rt input) representatives root).toOption.any (fun material =>
    material.dependencyIssues.isEmpty &&
      (validCost material.cost material.paymentComponentCount).toOption.any (·.1))

theorem exists_of_costAccepted {rt : Runtime} {input : DecisionGraphInput}
    {representatives : List RawCandidateRecord} {root : RawCandidateRecord}
    (h : costAccepted rt input representatives root = true) :
    ∃ material reasons,
      packMaterial rt input (offerIndex rt input) representatives root = .ok material ∧
      material.dependencyIssues = [] ∧
      validCost material.cost material.paymentComponentCount = .ok (true, reasons) := by
  obtain ⟨material, hmaterial, h⟩ := exists_of_toOption_any h
  obtain ⟨hissues, hverdict⟩ := Bool.and_eq_true_iff.mp h
  obtain ⟨⟨accepted, reasons⟩, hvalid, haccepted⟩ := exists_of_toOption_any hverdict
  obtain rfl : accepted = true := haccepted
  exact ⟨material, reasons, hmaterial, List.isEmpty_iff.mp hissues, hvalid⟩

/-- A bundle is accepted in which a paying offer has no fee and another has two. -/
theorem offset_fees_accepted : ¬ ∀ (material : PlanMaterial) (reasons : List String),
    packMaterial .ascii Sample.offsetInput (offerIndex .ascii Sample.offsetInput)
        [Sample.crm, Sample.sso] Sample.crm = .ok material →
      material.dependencyIssues = [] →
      validCost material.cost material.paymentComponentCount = .ok (true, reasons) →
      ∀ offer ∈ bundleOffers .ascii Sample.offsetInput
          (closure [Sample.crm, Sample.sso] Sample.crm).1,
        SoundOffer (bundleOffers .ascii Sample.offsetInput
          (closure [Sample.crm, Sample.sso] Sample.crm).1) offer := by
  intro hclaim
  obtain ⟨material, reasons, hmaterial, hissues, hvalid⟩ :=
    exists_of_costAccepted (show costAccepted .ascii Sample.offsetInput
      [Sample.crm, Sample.sso] Sample.crm = true by decide +kernel)
  have hsound := hclaim material reasons hmaterial hissues hvalid
  have hfees : (bundleOffers .ascii Sample.offsetInput
      (closure [Sample.crm, Sample.sso] Sample.crm).1).map
        (fun offer => (offer.paymentRequired, offer.feeLines)) = [(true, 0), (true, 2)] := by
    decide +kernel
  obtain ⟨offer, hoffer, hpair⟩ := List.mem_map.mp (hfees ▸ List.mem_cons_self)
  obtain ⟨hpaying, hnone⟩ := Prod.mk.inj hpair
  have hone := (hsound offer hoffer).fee hpaying
  rw [hnone] at hone
  cases hone

theorem accepted_offers_sound_iff_sample : ∃ material reasons,
    packMaterial .ascii Sample.bundleInput (offerIndex .ascii Sample.bundleInput)
        [Sample.crm, Sample.sso] Sample.crm = .ok material ∧
      material.dependencyIssues = [] ∧
      validCost material.cost material.paymentComponentCount = .ok (true, reasons) ∧
      ((∀ offer ∈ bundleOffers .ascii Sample.bundleInput
            (closure [Sample.crm, Sample.sso] Sample.crm).1,
          SoundOffer (bundleOffers .ascii Sample.bundleInput
            (closure [Sample.crm, Sample.sso] Sample.crm).1) offer) ↔
        NoOffset (bundleOffers .ascii Sample.bundleInput
          (closure [Sample.crm, Sample.sso] Sample.crm).1)) := by
  obtain ⟨material, reasons, hmaterial, hissues, hvalid⟩ :=
    exists_of_costAccepted (show costAccepted .ascii Sample.bundleInput
      [Sample.crm, Sample.sso] Sample.crm = true by decide +kernel)
  exact ⟨material, reasons, hmaterial, hissues, hvalid,
    accepted_offers_sound_iff hmaterial hissues hvalid⟩

end DecisionEngine
