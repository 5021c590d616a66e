-- SUMMARY: Binding the commercial terms of a quote to the selected plan: the check on line items keeps the last plan line of a type and rounds the quote's sums, and when that decides as the exact sums do.
import SiraSeil.DecisionEngine.BundleCosts
import SiraSeil.DecisionEngine.Counterfactual
import SiraSeil.Domain.DecimalText
import SiraSeil.Domain.EqualJson
import SiraSeil.Library.Grouping
import SiraSeil.SiraApi.DecisionService

/-!
# Commercial terms

`build_demo_plan_commercial_terms` accepts a quote for the selected plan after a list of exact
bindings and a comparison of line items by type. Documents hold no floats here; content hashing
refuses them.
-/

namespace SiraApi

open Raising

namespace CommercialTerms

open Domain DecisionEngine Grouping

/-! ## Errors and documents -/

inductive TermsError
  /-- `CommercialTermsConflict` -/
  | conflict (message : String)
  | python (error : PyError)
  | arithmetic (signal : PyNumber.Signal)

abbrev Terms (α : Type) := Except TermsError α

/-- What the functions take from the language and its packages -/
structure Host where
  rt : Runtime
  unicode : Unicode
  /-- `datetime.fromisoformat` -/
  fromIsoformat : String → Py Datetime

/-- The documents of `DemoFixtureBundle` that the terms are built from -/
structure DemoFixtureBundle where
  liveQuote : Dict String Value
  expectedPurchaseIntent : Dict String Value

/-- A boolean counts as the integer it is equal to. -/
def numeric : Atom → Atom
  | .bool b => .int (if b then 1 else 0)
  | a => a

/-- `==` on documents -/
def equal (v w : Value) : Bool :=
  equalTrees (v.tree.map numeric).sorted (w.tree.map numeric).sorted

def conflict {α : Type} (message : String) : Terms α :=
  .error (.conflict message)

/-- `document[name]` -/
def item (document : Dict String Value) (name : String) : Terms Value :=
  match document.get? name with
  | some v => .ok v
  | none => .error (.python (.key name))

/-- `document.get(name)` -/
def get (document : Dict String Value) (name : String) : Value :=
  (document.get? name).getD .null

/-- `_object` -/
def object (v : Value) (label : String) : Terms (List (String × Value)) :=
  match v with
  | .obj fields => .ok fields
  | _ => conflict (label ++ " must be an object")

/-- `_text` -/
def text (v : Value) (label : String) : Terms String :=
  match v with
  | .atom (.str s) => if s = "" then conflict (label ++ " must be a non-empty string") else .ok s
  | _ => conflict (label ++ " must be a non-empty string")

section Functions

variable (host : Host)

/-- `_decimal` -/
def decimal (v : Value) (label : String) : Terms PyNumber :=
  match v with
  | .atom (.int n) => .ok (.finite ⟨decide (n < 0), n.natAbs, 0⟩)
  | .atom (.str s) =>
    match PyNumber.ofText host.unicode s with
    | some number => .ok number
    | none => conflict (label ++ " must be an exact decimal")
  | _ => conflict (label ++ " must be an exact decimal")

/-- `amount != number`; a signaling NaN cannot be compared. -/
def differs (amount : ℚ) : PyNumber → Terms Bool
  | .finite d => .ok (decide (amount ≠ d.value))
  | .infinity _ => .ok true
  | .nan false => .ok true
  | .nan true => .error (.arithmetic .invalidOperation)

/-! ## Line totals -/

/-- The type and the amount of one line -/
def readLine (label : String) (raw : Value × Nat) : Terms (String × PyNumber) := do
  let label := label ++ "[" ++ toString raw.2 ++ "]"
  let fields ← object raw.1 label
  let lineType ← text ((fields.lookup "type").getD .null) (label ++ ".type")
  let amount ← decimal host ((fields.lookup "total_amount").getD .null) (label ++ ".total_amount")
  return (lineType, amount)

/-- `Decimal(0)` -/
def zero : PyNumber := .finite (.ofNat 0)

def addTotals (x y : PyNumber) : Terms PyNumber :=
  (x.add y).mapError .arithmetic

/-- `_line_totals` -/
def lineTotals (lines : Value) (label : String) : Terms (Dict String PyNumber) :=
  match lines with
  | .seq items =>
    items.zipIdx.foldlM (fun totals raw => do
      let line ← readLine host label raw
      accumulateOne addTotals zero totals line) Dict.empty
  | _ => conflict (label ++ " must be an array")

/-- The lines of a plan, with their base amounts -/
def planLines (plan : EvaluatedPlan) : List (String × ℚ) :=
  plan.dimensions.totalCost.lineItems.map (fun line => (line.lineItemType.value, line.base.amount))

/-- `plan_lines == totals`, for the dictionary of the lines of a plan -/
def sameTotals (lines : Dict String ℚ) (totals : Dict String PyNumber) : Bool :=
  lines.items.all (fun p => match totals.get? p.1 with
    | some (.finite d) => decide (p.2 = d.value)
    | _ => false) &&
  totals.items.all (fun p => lines.contains p.1)

/-! ## Bindings -/

/-- `_validate_quote_hash` -/
def validateQuoteHash (quote : Dict String Value) : Terms String := do
  let supplied ← text (get quote "content_hash") "quote.content_hash"
  let calculated ← (contentHash host.rt
    (.obj (quote.items.filter (fun p => p.1 ≠ "content_hash")))).mapError .python
  if supplied ≠ calculated then conflict "quote content hash does not match its payload"
  else return supplied

/-- The fields of the purchase terms, once all of them are there -/
def termsOf (template : Dict String Value) : Terms (List (String × Value)) :=
  termFields.mapM (fun field =>
    match template.get? field with
    | some v => .ok (field, v)
    | none => conflict ("purchase terms are missing " ++ field))

/-- `exact_bindings` -/
def exactBindings (quote template : Dict String Value) (candidate : RawCandidateRecord) :
    List (Value × Value × String) :=
  [(get quote "candidate_id", .str candidate.packId, "quote Pack"),
    (get quote "offer_id", .str candidate.offerId, "quote offer"),
    (get quote "offer_version", get template "offer_version", "offer version"),
    (get quote "quote_id", get template "quote_id", "quote ID"),
    (get quote "version", get template "quote_version", "quote version"),
    (get quote "expires_at", get template "quote_expires_at", "quote expiry"),
    (get quote "merchant", get template "merchant", "merchant"),
    (get quote "merchant_chain_id", get template "approved_merchant_chain_id", "merchant chain"),
    (get quote "line_items", get template "line_items", "line items"),
    (get quote "landed_total", get template "landed_total", "landed total"),
    (get quote "amount", get template "amount", "authorized amount"),
    (get quote "currency", get template "currency", "currency"),
    (get quote "tax_amount", get template "tax_amount", "tax"),
    (get quote "fee_amount", get template "fee_amount", "fee"),
    (get template "pack_id", .str candidate.packId, "Pack ID"),
    (get template "pack_version", .nat candidate.packVersion, "Pack version"),
    (get template "offer_id", .str candidate.offerId, "intent offer")]

def checkBindings (bindings : List (Value × Value × String)) : Terms Unit :=
  bindings.forM (fun binding =>
    if equal binding.1 binding.2.1 then .ok ()
    else conflict (binding.2.2 ++ " is not bound to the selected Solution Plan"))

/-- The expiry of the quote, which has a timezone -/
def checkExpiry (quote : Dict String Value) : Terms Unit := do
  let raw ← text (← item quote "expires_at") "quote.expires_at"
  let expiry ← (host.fromIsoformat (zuluOffset raw)).mapError .python
  if expiry.aware then return ()
  else conflict "quote expiry must include a timezone"

/-- The quote is for the base cost of the plan. -/
def checkCost (quote : Dict String Value) (candidate : RawCandidateRecord) (cost : OfferCost) :
    Terms Unit :=
  match cost.base with
  | none => conflict "selected Solution Plan has no exact base cost"
  | some base => do
    let mismatch : TermsError := .conflict "quote total is not the selected Solution Plan base cost"
    if cost.offerId ≠ candidate.offerId then throw mismatch
    let landed ← decimal host (← item quote "landed_total") "quote.landed_total"
    if ← differs base.amount landed then throw mismatch
    if !equal (.str base.currency) (← item quote "currency") then throw mismatch

/-- The selected plan, if one is selected that has to be paid -/
def selectedPlan (graphDecision : DecisionGraphDecision) : Terms (Option EvaluatedPlan) :=
  match graphDecision.base.selectedPlanId with
  | none => .ok none
  | some selectedPlanId =>
    match graphDecision.base.plans.find? (fun plan => decide (plan.planId = selectedPlanId)) with
    | none => conflict "selected Solution Plan is absent from the evaluation"
    | some plan =>
      if plan.lifecycle ≠ .executable ∨ plan.dimensions.totalCost.paymentRequired = false then
        .ok none
      else .ok (some plan)

/-- The candidate that the only component of the plan names, with the offer of the plan -/
def exactCandidate (graphInput : DecisionGraphInput) (plan : EvaluatedPlan) :
    Terms RawCandidateRecord :=
  match plan.components with
  | [component] =>
    if component.sourceType ≠ .pack then
      conflict "demo checkout requires one executable Pack component"
    else match graphInput.candidates.find? (fun candidate =>
        decide (candidate.productId = component.componentId) &&
          decide (candidate.offerId = plan.dimensions.totalCost.offerId)) with
      | none => conflict "selected Solution Plan has no exact frozen Pack and offer"
      | some candidate => .ok candidate
  | _ => conflict "demo checkout requires one executable Pack component"

/-- A plan that a quote is bound to, up to the line items -/
structure Bound where
  plan : EvaluatedPlan
  quoteHash : String
  fields : List (String × Value)

variable (fixtures : DemoFixtureBundle) (graphInput : DecisionGraphInput)
  (graphDecision : DecisionGraphDecision)

/-- `build_demo_plan_commercial_terms` up to the comparison of line items -/
def boundPlan : Terms (Option Bound) := do
  match ← selectedPlan graphDecision with
  | none => return none
  | some plan =>
    let candidate ← exactCandidate graphInput plan
    let quoteHash ← validateQuoteHash host fixtures.liveQuote
    let fields ← termsOf fixtures.expectedPurchaseIntent
    checkBindings (exactBindings fixtures.liveQuote fixtures.expectedPurchaseIntent candidate)
    checkExpiry host fixtures.liveQuote
    checkCost host fixtures.liveQuote candidate plan.dimensions.totalCost
    return some ⟨plan, quoteHash, fields⟩

/-- The terms before they are hashed -/
def Bound.terms (b : Bound) (stackPatchId : String) : Dict String Value :=
  Dict.ofList ([("schema_version", .str "plan_commercial_terms_v1"),
    ("solution_plan_id", .str b.plan.planId), ("stack_patch_id", .str stackPatchId),
    ("source_quote_hash", .str b.quoteHash)] ++ b.fields)

/-- The answer: the terms with their hash, under the plan -/
def Bound.answer (b : Bound) (stackPatchId hash : String) : Dict String (Dict String Value) :=
  Dict.ofList [(b.plan.planId, (b.terms stackPatchId).set "commercial_terms_hash" (.str hash))]

/-- `build_demo_plan_commercial_terms` -/
def buildDemoPlanCommercialTerms (stackPatchId : String) : Terms (Dict String (Dict String Value)) := do
  match ← boundPlan host fixtures graphInput graphDecision with
  | none => return Dict.empty
  | some b =>
    let totals ← lineTotals host (← item fixtures.liveQuote "line_items") "quote.line_items"
    -- a later line of a type replaces an earlier one
    let lines := Dict.ofList (planLines b.plan)
    if sameTotals lines totals = false then
      conflict "quote line items do not match the selected Solution Plan"
    else
      let hash ← (contentHash host.rt (.obj (b.terms stackPatchId).items)).mapError .python
      return b.answer stackPatchId hash

end Functions

/-! ## Reading the lines -/

section Lines

variable {host : Host}

/-- The lines of a quote that are finite numbers -/
def finiteLines (lines : List (String × PyNumber)) : Option (List (String × PyDecimal)) :=
  lines.mapM (fun p => match p.2 with
    | .finite d => some (p.1, d)
    | _ => none)

/-- The lines of the quote, as the decimals they are written with -/
def quoteLines (host : Host) (quote : Dict String Value) : Option (List (String × PyDecimal)) :=
  match quote.get? "line_items" with
  | some (.seq items) =>
    ((items.zipIdx.mapM (readLine host "quote.line_items")).toOption).bind finiteLines
  | _ => none

theorem finiteLines_eq_some {lines : List (String × PyNumber)} {entries : List (String × PyDecimal)} :
    finiteLines lines = some entries ↔ lines = entries.map (fun p => (p.1, .finite p.2)) := by
  induction lines generalizing entries with
  | nil =>
    cases entries <;> simp [finiteLines]
  | cons p lines ih =>
    obtain ⟨t, number⟩ := p
    unfold finiteLines at ih ⊢
    rw [List.mapM_cons]
    cases number with
    | finite d =>
      cases entries with
      | nil => simp [Option.bind_eq_some_iff]
      | cons q entries =>
        simp only [Option.pure_def, Option.bind_eq_bind, Option.bind_some, Option.bind_eq_some_iff,
          List.map_cons, Option.some.injEq, List.cons.injEq, ih]
        constructor
        · rintro ⟨rest, hrest, hq, rfl⟩
          exact ⟨by rw [← hq], hrest⟩
        · rintro ⟨hq, hrest⟩
          refine ⟨entries, hrest, ?_, rfl⟩
          obtain ⟨ht, hd⟩ := Prod.mk.inj hq
          exact Prod.ext ht (PyNumber.finite.inj hd)
    | infinity negative => cases entries <;> simp
    | nan signaling => cases entries <;> simp

theorem exists_finiteLines {lines : List (String × PyNumber)}
    (h : ∀ p ∈ lines, ∃ d, p.2 = PyNumber.finite d) : ∃ entries, finiteLines lines = some entries := by
  simp only [finiteLines_eq_some]
  induction lines with
  | nil => exact ⟨[], rfl⟩
  | cons p lines ih =>
    obtain ⟨⟨d, hd⟩, hlines⟩ := List.forall_mem_cons.mp h
    obtain ⟨entries, rfl⟩ := ih hlines
    exact ⟨(p.1, d) :: entries, by rw [List.map_cons, ← hd]⟩

theorem lineTotals_eq_ok {items : List Value} {label : String} {totals : Dict String PyNumber} :
    lineTotals host (.seq items) label = .ok totals ↔
      ∃ lines, items.zipIdx.mapM (readLine host label) = .ok lines ∧
        accumulate addTotals zero lines Dict.empty = .ok totals := by
  unfold lineTotals accumulate
  simp only
  generalize Dict.empty = start
  induction items.zipIdx generalizing start with
  | nil => simp
  | cons raw raws ih =>
    rw [List.foldlM_cons, List.mapM_cons]
    simp only [bind_eq_ok, ih]
    constructor
    · rintro ⟨next, ⟨line, hline, hnext⟩, lines, hlines, htotals⟩
      refine ⟨line :: lines, ⟨line, hline, lines, hlines, rfl⟩, ?_⟩
      rw [List.foldlM_cons, hnext]
      exact htotals
    · rintro ⟨_, ⟨line, hline, lines, hlines, hcons⟩, htotals⟩
      obtain rfl := pure_eq_ok.mp hcons
      rw [List.foldlM_cons] at htotals
      obtain ⟨next, hnext, hrest⟩ := bind_eq_ok.mp htotals
      exact ⟨next, ⟨line, hline, hnext⟩, lines, hlines, hrest⟩

/-- The total that the 28 digits of the context leave of some amounts -/
def roundedTotal (amounts : List PyDecimal) : Option PyDecimal :=
  PyNumber.finiteSum (.ofNat 0) amounts

theorem foldlM_addTotals {numbers : List PyNumber} {start total : PyNumber} :
    numbers.foldlM addTotals start = .ok total ↔ numbers.foldlM PyNumber.add start = .ok total := by
  induction numbers generalizing start with
  | nil => simp
  | cons n numbers ih =>
    simp only [List.foldlM_cons, bind_eq_ok, ih, addTotals, mapError_eq_ok]

/-- The numbers of a type have a finite total if they are finite and their addition does not
    overflow. -/
theorem foldlM_eq_finite {numbers : List PyNumber} {total : PyDecimal} :
    numbers.foldlM addTotals zero = .ok (.finite total) ↔
      ∃ ds, numbers = ds.map .finite ∧ roundedTotal ds = some total := by
  rw [foldlM_addTotals, PyNumber.foldlM_add_eq_finite]
  constructor
  · rintro ⟨d, ds, hzero, hds, htotal⟩
    obtain rfl := PyNumber.finite.inj hzero
    exact ⟨ds, hds, htotal⟩
  · rintro ⟨ds, hds, htotal⟩
    exact ⟨_, ds, rfl, hds, htotal⟩

theorem sameTotals_iff {lines : Dict String ℚ} {totals : Dict String PyNumber} :
    sameTotals lines totals = true ↔ ∀ t, (lines.get? t = none ∧ totals.get? t = none) ∨
      ∃ d, totals.get? t = some (.finite d) ∧ lines.get? t = some d.value := by
  unfold sameTotals
  rw [Bool.and_eq_true, List.all_eq_true, List.all_eq_true]
  constructor
  · rintro ⟨hlines, htotals⟩ t
    cases hline : lines.get? t with
    | none =>
      refine .inl ⟨rfl, ?_⟩
      cases htotal : totals.get? t with
      | none => rfl
      | some total =>
        have hkey := htotals (t, total) (Dict.get?_eq_some_iff.mp htotal)
        simp [Dict.contains, hline] at hkey
    | some q =>
      have hvalue := hlines (t, q) (Dict.get?_eq_some_iff.mp hline)
      simp only at hvalue
      split at hvalue
      · next d hd => exact .inr ⟨d, hd, by rw [of_decide_eq_true hvalue]⟩
      · cases hvalue
  · intro h
    constructor
    · intro p hp
      have hline := Dict.get?_eq_some_iff.mpr hp
      rcases h p.1 with ⟨hnone, -⟩ | ⟨d, hd, hvalue⟩
      · rw [hnone] at hline
        cases hline
      · rw [hline] at hvalue
        simp [hd, Option.some.inj hvalue]
    · intro p hp
      have htotal := Dict.get?_eq_some_iff.mpr hp
      rcases h p.1 with ⟨-, hnone⟩ | ⟨d, -, hvalue⟩
      · rw [hnone] at htotal
        cases htotal
      · simp [Dict.contains, hvalue]

/-- The last line of a type in the plan is the quote's total of that type, or neither has one. -/
def LastIsTotal (entries : List (String × PyDecimal)) (plan : EvaluatedPlan) (t : String) : Prop :=
  (group entries t = [] ∧ group (planLines plan) t = []) ∨
    group entries t ≠ [] ∧ ∃ total, roundedTotal (group entries t) = some total ∧
      (group (planLines plan) t).getLast? = some total.value

/-- The totals of some lines are those of a plan if the lines are finite numbers and every type
    has its last plan line as the total. -/
theorem accumulated_iff {read : List (String × PyNumber)} {plan : EvaluatedPlan} :
    (∃ totals, accumulate addTotals zero read Dict.empty = .ok totals ∧
        ∀ t, ((group (planLines plan) t).getLast? = none ∧ totals.get? t = none) ∨
          ∃ d, totals.get? t = some (.finite d) ∧
            (group (planLines plan) t).getLast? = some d.value) ↔
      ∃ entries, finiteLines read = some entries ∧ ∀ t, LastIsTotal entries plan t := by
  constructor
  · rintro ⟨totals, htotals, hsame⟩
    -- every type with a line has a finite total, so every line is a finite number
    have hgroup : ∀ t, (group read t = [] ∧ (group (planLines plan) t).getLast? = none) ∨
        group read t ≠ [] ∧ ∃ ds total, group read t = ds.map PyNumber.finite ∧
          roundedTotal ds = some total ∧
          (group (planLines plan) t).getLast? = some total.value := by
      intro t
      have hadded := added_none_eq_ok.mp (get?_accumulate htotals t)
      rcases hadded with ⟨hnil, hnone⟩ | ⟨hlines, total, hsome, htotal⟩
      · refine .inl ⟨hnil, ?_⟩
        rcases hsame t with ⟨hlast, -⟩ | ⟨d, hd, -⟩
        · exact hlast
        · rw [hnone] at hd
          cases hd
      · refine .inr ⟨hlines, ?_⟩
        rcases hsame t with ⟨-, hnone⟩ | ⟨d, hd, hlast⟩
        · rw [hsome] at hnone
          cases hnone
        · obtain rfl := Option.some.inj (hsome.symm.trans hd)
          obtain ⟨ds, hds, hrounded⟩ := (foldlM_eq_finite).mp htotal
          exact ⟨ds, d, hds, hrounded, hlast⟩
    have hfinite : ∀ p ∈ read, ∃ d, p.2 = PyNumber.finite d := by
      intro p hp
      have hmem : p.2 ∈ group read p.1 := mem_group.mpr hp
      rcases hgroup p.1 with ⟨hnil, -⟩ | ⟨-, ds, -, hds, -⟩
      · rw [hnil] at hmem
        cases hmem
      · rw [hds] at hmem
        obtain ⟨d, -, hd⟩ := List.mem_map.mp hmem
        exact ⟨d, hd.symm⟩
    obtain ⟨entries, hentries⟩ := exists_finiteLines hfinite
    refine ⟨entries, hentries, ?_⟩
    intro t
    have hread : group read t = (group entries t).map PyNumber.finite := by
      rw [(finiteLines_eq_some).mp hentries, group_map]
    rcases hgroup t with ⟨hnil, hlast⟩ | ⟨hlines, ds, total, hds, hrounded, hlast⟩
    · refine .inl ⟨?_, List.getLast?_eq_none_iff.mp hlast⟩
      rw [hread] at hnil
      exact List.map_eq_nil_iff.mp hnil
    · rw [hread] at hlines hds
      have hsame : group entries t = ds :=
        List.map_injective_iff.mpr (fun _ _ h => PyNumber.finite.inj h) hds
      exact .inr ⟨by simpa using hlines, total, by rw [hsame]; exact hrounded, hlast⟩
  · rintro ⟨entries, hentries, hlast⟩
    have hread : ∀ t, group read t = (group entries t).map PyNumber.finite := by
      intro t
      rw [(finiteLines_eq_some).mp hentries, group_map]
    have hadded : ∀ t, ∃ held, added addTotals zero none (group read t) = .ok held := by
      intro t
      rcases hlast t with ⟨hnil, -⟩ | ⟨hlines, total, hrounded, -⟩
      · exact ⟨none, added_none_eq_ok.mpr (.inl ⟨by simp [hread, hnil], rfl⟩)⟩
      · exact ⟨some (.finite total), added_none_eq_ok.mpr (.inr ⟨by simpa [hread] using hlines, _, rfl,
          (foldlM_eq_finite).mpr ⟨_, hread t, hrounded⟩⟩)⟩
    obtain ⟨totals, htotals⟩ := exists_accumulate (d := Dict.empty) hadded
    refine ⟨totals, htotals, ?_⟩
    intro t
    rcases added_none_eq_ok.mp (get?_accumulate htotals t) with ⟨hnil, hnone⟩ | ⟨hlines, held, hsome, hheld⟩
    · rcases hlast t with ⟨-, hplan⟩ | ⟨hlines, -⟩
      · exact .inl ⟨by simp [hplan], hnone⟩
      · simp [hread, hlines] at hnil
    · rcases hlast t with ⟨hnil, -⟩ | ⟨-, total, hrounded, hplan⟩
      · simp [hread, hnil] at hlines
      · have htotal := (foldlM_eq_finite).mpr ⟨_, hread t, hrounded⟩
        obtain rfl := Except.ok.inj (hheld.symm.trans htotal)
        exact .inr ⟨total, hsome, hplan⟩

theorem accepted_iff {quote : Dict String Value} {lines : Value} {plan : EvaluatedPlan}
    (hlines : quote.get? "line_items" = some lines) :
    (∃ totals, lineTotals host lines "quote.line_items" = .ok totals ∧
        sameTotals (Dict.ofList (planLines plan)) totals = true) ↔
      ∃ entries, quoteLines host quote = some entries ∧ ∀ t, LastIsTotal entries plan t := by
  unfold quoteLines
  rw [hlines]
  cases lines with
  | atom a => simp [lineTotals, conflict]
  | obj fields => simp [lineTotals, conflict]
  | seq items =>
    simp only [lineTotals_eq_ok, sameTotals_iff, get?_ofList_eq_getLast?]
    cases hread : items.zipIdx.mapM (readLine host "quote.line_items") with
    | error e => simp [Except.toOption]
    | ok read =>
      simp only [Except.ok.injEq, exists_eq_left', Except.toOption, Option.bind_some]
      exact accumulated_iff

end Lines

/-! ## Bound plans -/

section Bindings

variable {host : Host} {fixtures : DemoFixtureBundle} {graphInput : DecisionGraphInput}
  {graphDecision : DecisionGraphDecision}

/-- The landed total of the quote, if it is a finite number -/
def landedTotal (host : Host) (quote : Dict String Value) : Option ℚ :=
  match (quote.get? "landed_total").map (fun v => decimal host v "quote.landed_total") with
  | some (.ok (.finite d)) => some d.value
  | _ => none

theorem checkCost_eq_ok {quote : Dict String Value} {candidate : RawCandidateRecord}
    {cost : OfferCost} (h : checkCost host quote candidate cost = .ok ()) :
    ∃ base, cost.base = some base ∧ landedTotal host quote = some base.amount := by
  unfold checkCost at h
  split at h
  · cases h
  · next base hbase =>
    simp only [unless_throw_eq_ok, bind_eq_ok] at h
    obtain ⟨-, v, hitem, number, hnumber, differ, hdiffer, hequal, -⟩ := h
    have hread : quote.get? "landed_total" = some v := by
      unfold item at hitem
      split at hitem
      · next w hw =>
        cases hitem
        exact hw
      · cases hitem
    refine ⟨base, hbase, ?_⟩
    obtain rfl := Bool.not_eq_true _ ▸ hequal
    cases number with
    | finite d =>
      have hvalue : base.amount = d.value := by simpa [differs] using hdiffer
      simp [landedTotal, hread, hnumber, hvalue]
    | infinity negative => cases hdiffer
    | nan signaling => cases signaling <;> cases hdiffer

theorem boundPlan_eq_some {b : Bound} (h : boundPlan host fixtures graphInput graphDecision = .ok (some b)) :
    selectedPlan graphDecision = .ok (some b.plan) ∧
      ∃ base, b.plan.dimensions.totalCost.base = some base ∧
        landedTotal host fixtures.liveQuote = some base.amount := by
  unfold boundPlan at h
  obtain ⟨selected, hselected, h⟩ := bind_eq_ok.mp h
  cases selected with
  | none => cases pure_eq_ok.mp h
  | some plan =>
    simp only [bind_eq_ok, pure_eq_ok, Option.some.injEq] at h
    obtain ⟨candidate, -, quoteHash, -, fields, -, _, -, _, -, _, hcost, rfl⟩ := h
    exact ⟨hselected, checkCost_eq_ok hcost⟩

/-- A bound plan has terms exactly if its lines are accepted and the terms can be hashed. -/
theorem build_eq_ok {b : Bound} {stackPatchId : String} {d : Dict String (Dict String Value)}
    (h : boundPlan host fixtures graphInput graphDecision = .ok (some b)) :
    buildDemoPlanCommercialTerms host fixtures graphInput graphDecision stackPatchId = .ok d ↔
      (∃ entries, quoteLines host fixtures.liveQuote = some entries ∧
        ∀ t, LastIsTotal entries b.plan t) ∧
      ∃ hash, contentHash host.rt (.obj (b.terms stackPatchId).items) = .ok hash ∧
        b.answer stackPatchId hash = d := by
  unfold buildDemoPlanCommercialTerms
  rw [h, ok_bind]
  cases hlines : fixtures.liveQuote.get? "line_items" with
  | none => simp [item, hlines, quoteLines]
  | some lines =>
    rw [← accepted_iff hlines]
    have hitem : item fixtures.liveQuote "line_items" = .ok lines := by simp [item, hlines]
    simp only [hitem, ok_bind, bind_eq_ok]
    constructor
    · rintro ⟨totals, htotals, hd⟩
      split at hd
      · cases hd
      · next hsame =>
        obtain ⟨hash, hhash, hanswer⟩ := bind_eq_ok.mp hd
        exact ⟨⟨totals, htotals, Bool.not_eq_false _ ▸ hsame⟩, hash,
          mapError_eq_ok.mp hhash, pure_eq_ok.mp hanswer⟩
    · rintro ⟨⟨totals, htotals, hsame⟩, hash, hhash, rfl⟩
      refine ⟨totals, htotals, ?_⟩
      rw [if_neg (by simp [hsame]), mapError_eq_ok.mpr hhash]
      rfl

theorem exists_build_iff {b : Bound} {stackPatchId : String}
    (h : boundPlan host fixtures graphInput graphDecision = .ok (some b)) :
    (∃ d, buildDemoPlanCommercialTerms host fixtures graphInput graphDecision stackPatchId = .ok d) ↔
      (∃ entries, quoteLines host fixtures.liveQuote = some entries ∧
        ∀ t, LastIsTotal entries b.plan t) ∧
      (Value.obj (b.terms stackPatchId).items).Canonical := by
  rw [← @exists_contentHash_eq_ok host.rt]
  simp only [build_eq_ok h]
  constructor
  · rintro ⟨d, hentries, hash, hhash, -⟩
    exact ⟨hentries, hash, hhash⟩
  · rintro ⟨hentries, hash, hhash⟩
    exact ⟨_, hentries, hash, hhash, rfl⟩

theorem Bound.get?_answer (b : Bound) (stackPatchId hash : String) :
    (b.answer stackPatchId hash).get? b.plan.planId =
      some ((b.terms stackPatchId).set "commercial_terms_hash" (.str hash)) := by
  unfold Bound.answer
  simp [get?_ofList_eq_getLast?, group_cons]

theorem bound_of_build {stackPatchId : String} {d : Dict String (Dict String Value)} {id : String}
    {terms : Dict String Value}
    (h : buildDemoPlanCommercialTerms host fixtures graphInput graphDecision stackPatchId = .ok d)
    (hterms : d.get? id = some terms) :
    ∃ b, boundPlan host fixtures graphInput graphDecision = .ok (some b) := by
  unfold buildDemoPlanCommercialTerms at h
  obtain ⟨bound, hbound, h⟩ := bind_eq_ok.mp h
  cases bound with
  | none =>
    obtain rfl := pure_eq_ok.mp h
    cases hterms
  | some b => exact ⟨b, hbound⟩

end Bindings

/-! ## Sums that agree -/

/-- The sums of every type are the same in the quote and in the plan. -/
def TypesAgree (entries : List (String × PyDecimal)) (plan : EvaluatedPlan) : Prop :=
  ∀ t, ((group entries t).map PyDecimal.value).sum = (group (planLines plan) t).sum

/-- All lines of the quote add up to its landed total, which is the base cost of the plan. -/
def TotalsAgree (entries : List (String × PyDecimal)) (landed : ℚ) (plan : EvaluatedPlan) : Prop :=
  (entries.map (fun p => p.2.value)).sum = landed ∧
    plan.dimensions.totalCost.base.map (·.amount) = some landed

/-- The lines of the plan add up to its base cost. -/
def AddsUp (plan : EvaluatedPlan) : Prop :=
  plan.dimensions.totalCost.base.map (·.amount) = some ((planLines plan).map Prod.snd).sum

section Matching

variable (host : Host) (fixtures : DemoFixtureBundle) (graphInput : DecisionGraphInput)
  (graphDecision : DecisionGraphDecision) (stackPatchId : String)

/-- Terms are built for a bound plan exactly if the sums agree. -/
structure TermsMatch : Prop where
  accepted : ∀ plan, selectedPlan graphDecision = .ok (some plan) → ∀ d terms,
    buildDemoPlanCommercialTerms host fixtures graphInput graphDecision stackPatchId = .ok d →
    d.get? plan.planId = some terms →
    ∃ entries landed, quoteLines host fixtures.liveQuote = some entries ∧
      landedTotal host fixtures.liveQuote = some landed ∧ TypesAgree entries plan ∧
      (AddsUp plan → TotalsAgree entries landed plan)
  complete : ∀ b, boundPlan host fixtures graphInput graphDecision = .ok (some b) → ∀ entries landed,
    quoteLines host fixtures.liveQuote = some entries →
    landedTotal host fixtures.liveQuote = some landed →
    TypesAgree entries b.plan → TotalsAgree entries landed b.plan →
    ∃ d, buildDemoPlanCommercialTerms host fixtures graphInput graphDecision stackPatchId = .ok d

end Matching

/-- The plan lines of a type before its last one make up for what the context rounds away of the
    quote's lines of that type. Both are nothing where the plan lists the type once and the
    quote's sums are exact. -/
def Offset (entries : List (String × PyDecimal)) (plan : EvaluatedPlan) (t : String) : Prop :=
  ∃ total, roundedTotal (group entries t) = some total ∧
    (group (planLines plan) t).dropLast.sum =
      ((group entries t).map PyDecimal.value).sum - total.value

/-- The comparison of a bound plan decides as the exact sums do: where it accepts, and where the
    sums agree. -/
structure Decides (stackPatchId : String) (b : Bound) (entries : List (String × PyDecimal))
    (landed : ℚ) : Prop where
  accepted : (Value.obj (b.terms stackPatchId).items).Canonical →
    (∀ t, LastIsTotal entries b.plan t) → ∀ t, Offset entries b.plan t
  complete : TypesAgree entries b.plan → TotalsAgree entries landed b.plan →
    (∀ t, Offset entries b.plan t ∧ (group entries t = [] ↔ group (planLines b.plan) t = [])) ∧
      (Value.obj (b.terms stackPatchId).items).Canonical

section Deciding

variable {entries : List (String × PyDecimal)} {plan : EvaluatedPlan} {t : String}

/-- Where the last plan line is the quote's total, the sums agree if what stands before it is
    offset. -/
theorem LastIsTotal.sums_iff (h : LastIsTotal entries plan t) :
    ((group entries t).map PyDecimal.value).sum = (group (planLines plan) t).sum ↔
      Offset entries plan t := by
  rcases h with ⟨hentries, hplan⟩ | ⟨-, total, htotal, hlast⟩
  · rw [hentries, hplan]
    refine iff_of_true rfl ⟨.ofNat 0, by rw [hentries]; rfl, by simp [hentries, hplan]⟩
  · rw [sum_eq_dropLast_add hlast]
    constructor
    · intro hsum
      exact ⟨total, htotal, by linarith⟩
    · rintro ⟨total', htotal', hoffset⟩
      obtain rfl := Option.some.inj (htotal.symm.trans htotal')
      linarith

theorem Offset.lastIsTotal (h : Offset entries plan t)
    (hlisted : group entries t = [] ↔ group (planLines plan) t = [])
    (hsum : ((group entries t).map PyDecimal.value).sum = (group (planLines plan) t).sum) :
    LastIsTotal entries plan t := by
  by_cases hentries : group entries t = []
  · exact .inl ⟨hentries, hlisted.mp hentries⟩
  · obtain ⟨total, htotal, hoffset⟩ := h
    have hplan : group (planLines plan) t ≠ [] := fun hnil => hentries (hlisted.mpr hnil)
    have hlast := List.getLast?_eq_some_getLast hplan
    refine .inr ⟨hentries, total, htotal, ?_⟩
    rw [hlast]
    rw [sum_eq_dropLast_add hlast] at hsum
    exact congrArg some (by linarith)

theorem LastIsTotal.listed (h : LastIsTotal entries plan t) :
    group entries t = [] ↔ group (planLines plan) t = [] := by
  rcases h with ⟨hentries, hplan⟩ | ⟨hentries, total, -, hlast⟩
  · exact iff_of_true hentries hplan
  · refine iff_of_false hentries ?_
    intro hnil
    rw [hnil] at hlast
    cases hlast

end Deciding

section Iff

variable {host : Host} {fixtures : DemoFixtureBundle} {graphInput : DecisionGraphInput}
  {graphDecision : DecisionGraphDecision} {stackPatchId : String}

theorem TermsMatch.decides (h : TermsMatch host fixtures graphInput graphDecision stackPatchId)
    {b : Bound} (hb : boundPlan host fixtures graphInput graphDecision = .ok (some b))
    {entries : List (String × PyDecimal)} {landed : ℚ}
    (hentries : quoteLines host fixtures.liveQuote = some entries)
    (hlanded : landedTotal host fixtures.liveQuote = some landed) :
    Decides stackPatchId b entries landed := by
  obtain ⟨hselected, -⟩ := boundPlan_eq_some hb
  constructor
  · intro hcanonical hlast t
    obtain ⟨hash, hhash⟩ := (@exists_contentHash_eq_ok host.rt _).mpr hcanonical
    have hbuild := (build_eq_ok hb).mpr ⟨⟨entries, hentries, hlast⟩, hash, hhash, rfl⟩
    obtain ⟨entries', -, hentries', -, htypes, -⟩ :=
      h.accepted b.plan hselected _ _ hbuild (b.get?_answer stackPatchId hash)
    obtain rfl := Option.some.inj (hentries.symm.trans hentries')
    exact (hlast t).sums_iff.mp (htypes t)
  · intro htypes htotals
    obtain ⟨d, hd⟩ := h.complete b hb entries landed hentries hlanded htypes htotals
    obtain ⟨⟨entries', hentries', hlast⟩, hcanonical⟩ := (exists_build_iff hb).mp ⟨d, hd⟩
    obtain rfl := Option.some.inj (hentries.symm.trans hentries')
    exact ⟨fun t => ⟨(hlast t).sums_iff.mp (htypes t), (hlast t).listed⟩, hcanonical⟩

theorem TermsMatch.of_decides
    (h : ∀ b, boundPlan host fixtures graphInput graphDecision = .ok (some b) → ∀ entries landed,
      quoteLines host fixtures.liveQuote = some entries →
      landedTotal host fixtures.liveQuote = some landed → Decides stackPatchId b entries landed) :
    TermsMatch host fixtures graphInput graphDecision stackPatchId := by
  constructor
  · intro plan hplan d terms hd hterms
    obtain ⟨b, hb⟩ := bound_of_build hd hterms
    obtain ⟨hselected, base, hbase, hlanded⟩ := boundPlan_eq_some hb
    obtain rfl := Option.some.inj (Except.ok.inj (hplan.symm.trans hselected))
    obtain ⟨⟨entries, hentries, hlast⟩, hcanonical⟩ := (exists_build_iff hb).mp ⟨d, hd⟩
    have hoffset := (h b hb entries base.amount hentries hlanded).accepted hcanonical hlast
    have htypes : TypesAgree entries b.plan := fun t => (hlast t).sums_iff.mpr (hoffset t)
    refine ⟨entries, base.amount, hentries, hlanded, htypes, ?_⟩
    intro hadds
    have hsums : ((entries.map (fun p => (p.1, p.2.value))).map Prod.snd).sum =
        ((planLines b.plan).map Prod.snd).sum := by
      refine sum_congr_groups (fun t => ?_)
      rw [group_map]
      exact htypes t
    rw [AddsUp, hbase, Option.map_some, Option.some.injEq] at hadds
    refine ⟨?_, by rw [hbase]; rfl⟩
    rw [hadds, ← hsums, List.map_map]
    rfl
  · intro b hb entries landed hentries hlanded htypes htotals
    obtain ⟨hoffset, hcanonical⟩ := (h b hb entries landed hentries hlanded).complete htypes htotals
    exact (exists_build_iff hb).mpr ⟨⟨entries, hentries, fun t =>
      (hoffset t).1.lastIsTotal (hoffset t).2 (htypes t)⟩, hcanonical⟩

end Iff

namespace Sample

/-- The time of the sample is the only one that is parsed. -/
def host : Host where
  rt := .ascii
  unicode := { decimal := fun _ => none, upper := fun c => [c] }
  fromIsoformat := fun text =>
    if text = "2026-08-02T12:00:00+00:00" then .ok ⟨1785672000000000, true⟩
    else .error (.value ("Invalid isoformat string: '" ++ text ++ "'"))

def dollars (cents : Nat) (h : cents < 10 ^ 28 := by decide) : Money where
  cents := cents
  currency := "USD"
  cents_lt := h
  currency_ok := isCurrency_usd

def line (lineItemType : CostLineType) (amount : Money) : CostLineItem where
  lineItemType := lineItemType
  low := amount
  base := amount
  high := amount

/-- Two merchant lines and the fee -/
def cost : OfferCost where
  offerId := "offer_crm"
  low := some (dollars 10000)
  base := some (dollars 10000)
  high := some (dollars 10000)
  horizonDays := 365
  lineItems := [line .merchantSubtotal (dollars 6000), line .merchantSubtotal (dollars 3000),
    line .siraTransactionFee (dollars 1000)]
  paymentRequired := true

theorem ordered_age : (0 : ℚ) ≤ 0 ∧ (0 : ℚ) ≤ 1 := by
  decide

def plan : EvaluatedPlan where
  planId := "plan_1"
  action := .replace
  components := [{ componentId := "crm", sourceType := .pack, action := .replace }]
  componentHash := "sha256:1"
  constructionLifecycle := .candidate
  lifecycle := .executable
  status := .eligible
  primaryReason := none
  gateResults := []
  scoreComponents := []
  dimensions :=
    { preference := none
      stackRisk := none
      totalCost := cost
      decisionMaterialCoverage := ⟨1, 1⟩
      maximumEvidenceAgeRatio := ⟨0, 1, ordered_age⟩
      hardCoverage := { numerator := 1, denominator := 1 }
      universeCoverage := 1
      unresolvedCount := 0
      conflictingCount := 0
      triggeredRiskRuleIds := []
      riskInputHash := "sha256:2"
      boundUnavailableReasons := [] }
  stableActionIds := ["replace", "crm"]

def evaluation : DecisionGraphEvaluation where
  evaluationId := "evaluation_1"
  generatedAt := DecisionEngine.Sample.now
  versions := DecisionEngine.Sample.versions
  evaluatedAt := DecisionEngine.Sample.now
  frozenInputHashes := []
  removedPrivateFactIds := .of []
  identityRecords := []
  identityMerges := []
  recallExclusions := []
  evidenceAssessments := []
  plans := [plan]
  rankedPlanIds := ["plan_1"]
  selectedPlanId := some "plan_1"
  rankStability := .stable
  orderingFrontierPlanIds := []
  boundUnavailablePlanIds := []
  coverage :=
    { rawRecordCount := 1
      packCandidateCount := 1
      canonicalProductCount := 1
      duplicateCount := 0
      generatedSolutionPlanCount := 1
      evaluatedSolutionPlanCount := 1
      excludedCount := 0
      statement := "" }
  evaluationPayloadHash := "sha256:3"

def decision : DecisionGraphDecision where
  base := evaluation
  generic := evaluation
  counterfactual :=
    { outcome := .noSmallCounterfactualFound
      removedFactIds := []
      alternativeFactIdSets := []
      testedLimit := 2
      beforeEvaluationPayloadHash := "sha256:3"
      afterEvaluationPayloadHash := none
      genericEvaluationPayloadHash := "sha256:3"
      beforeSelectedPlanId := some "plan_1"
      afterSelectedPlanId := none
      genericSelectedPlanId := some "plan_1"
      changedGateIds := []
      recordHash := "sha256:4" }
  decisionHash := "sha256:5"

/-- One merchant line, for the given amount, and the fee -/
def lines (merchant : String) : Value :=
  .seq [.obj [("type", .str "MERCHANT_SUBTOTAL"), ("total_amount", .str merchant)],
    .obj [("type", .str "SIRA_TRANSACTION_FEE"), ("total_amount", .str "10.00")]]

def quote (merchant hash : String) : Dict String Value :=
  Dict.ofList [("quote_id", .str "quote_1"), ("version", .int 1), ("candidate_id", .str "pack_crm"),
    ("offer_id", .str "offer_crm"), ("offer_version", .int 1), ("merchant_chain_id", .str "smc_1"),
    ("merchant", .obj [("name", .str "Acme")]), ("line_items", lines merchant),
    ("amount", .str "100.00"), ("tax_amount", .str "0.00"), ("fee_amount", .str "10.00"),
    ("landed_total", .str "100.00"), ("currency", .str "USD"),
    ("expires_at", .str "2026-08-02T12:00:00Z"), ("content_hash", .str hash)]

/-- The purchase terms of the quote -/
def template (merchant : String) : Dict String Value :=
  Dict.ofList (termFields.map (fun field => (field,
    if field = "pack_id" then .str "pack_crm"
    else if field = "pack_version" then .int 1
    else if field = "offer_id" then .str "offer_crm"
    else if field = "offer_version" then .int 1
    else if field = "quote_id" then .str "quote_1"
    else if field = "quote_version" then .int 1
    else if field = "quote_expires_at" then .str "2026-08-02T12:00:00Z"
    else if field = "merchant" then .obj [("name", .str "Acme")]
    else if field = "approved_merchant_chain_id" then .str "smc_1"
    else if field = "amount" then .str "100.00"
    else if field = "currency" then .str "USD"
    else if field = "line_items" then lines merchant
    else if field = "tax_amount" then .str "0.00"
    else if field = "fee_amount" then .str "10.00"
    else if field = "landed_total" then .str "100.00"
    else .null)))

/-- A quote that repeats the last merchant line of the plan -/
def masked : DemoFixtureBundle where
  liveQuote := quote "30.00" "sha256:22886f04502a3f4122d178ca4a5d74c8e29f4b9a0027f762d88360c552b2fdf7"
  expectedPurchaseIntent := template "30.00"

/-- A quote whose merchant line is the sum of those of the plan -/
def summed : DemoFixtureBundle where
  liveQuote := quote "90.00" "sha256:52bfcb471e84f3a9d32c37c141506bd22e4f4134f081082859a424db4f63ac43"
  expectedPurchaseIntent := template "90.00"

theorem exists_bound {fixtures : DemoFixtureBundle}
    (h : (boundPlan host fixtures DecisionEngine.Sample.bundleInput decision).toOption.join.isSome
      = true) :
    ∃ b, boundPlan host fixtures DecisionEngine.Sample.bundleInput decision = .ok (some b) ∧
      b.plan = plan := by
  cases hbound : boundPlan host fixtures DecisionEngine.Sample.bundleInput decision with
  | error e =>
    rw [hbound] at h
    cases h
  | ok bound =>
    cases bound with
    | none =>
      rw [hbound] at h
      cases h
    | some b =>
      have hselected : selectedPlan decision = .ok (some plan) := rfl
      have hplan := (boundPlan_eq_some hbound).1
      exact ⟨b, rfl, Option.some.inj (Except.ok.inj (hplan.symm.trans hselected))⟩

/-- The lines of a sample quote -/
def entries (merchant : Nat) : List (String × PyDecimal) :=
  [("MERCHANT_SUBTOTAL", ⟨false, merchant, -2⟩), ("SIRA_TRANSACTION_FEE", ⟨false, 1000, -2⟩)]

theorem masked_accepted :
    (boundPlan host masked DecisionEngine.Sample.bundleInput decision).toOption.join.isSome = true ∧
      (buildDemoPlanCommercialTerms host masked DecisionEngine.Sample.bundleInput decision
        "patch_1").isOk = true ∧ quoteLines host masked.liveQuote = some (entries 3000) := by
  unfold host
  rw [Runtime.ascii_eq]
  decide +kernel

theorem summed_refused :
    (boundPlan host summed DecisionEngine.Sample.bundleInput decision).toOption.join.isSome = true ∧
      (buildDemoPlanCommercialTerms host summed DecisionEngine.Sample.bundleInput decision
        "patch_1").isOk = false ∧ quoteLines host summed.liveQuote = some (entries 9000) ∧
      landedTotal host summed.liveQuote = some 100 := by
  unfold host
  rw [Runtime.ascii_eq]
  decide +kernel

theorem sums_plan :
    planLines plan =
        [("MERCHANT_SUBTOTAL", 60), ("MERCHANT_SUBTOTAL", 30), ("SIRA_TRANSACTION_FEE", 10)] ∧
      (∀ t ∈ ["MERCHANT_SUBTOTAL", "SIRA_TRANSACTION_FEE"],
        ((group (entries 9000) t).map PyDecimal.value).sum = (group (planLines plan) t).sum) ∧
      ((group (entries 3000) "MERCHANT_SUBTOTAL").map PyDecimal.value).sum ≠
        (group (planLines plan) "MERCHANT_SUBTOTAL").sum ∧ TotalsAgree (entries 9000) 100 plan := by
  refine ⟨?_, ?_, ?_, ?_, ?_⟩ <;> decide +kernel

theorem summed_types : TypesAgree (entries 9000) plan := by
  intro t
  obtain ⟨hlines, hagree, -⟩ := sums_plan
  by_cases ht : t ∈ ["MERCHANT_SUBTOTAL", "SIRA_TRANSACTION_FEE"]
  · exact hagree t ht
  · simp only [List.mem_cons, List.not_mem_nil, or_false, not_or] at ht
    rw [hlines]
    simp only [entries, group_cons, group_nil, Ne.symm ht.1, Ne.symm ht.2, if_false,
      List.map_nil, List.sum_nil]

theorem not_match_masked :
    ¬ TermsMatch host masked DecisionEngine.Sample.bundleInput decision "patch_1" := by
  intro h
  obtain ⟨hbound, hbuild, hread⟩ := masked_accepted
  obtain ⟨b, hb, hplan⟩ := exists_bound hbound
  obtain ⟨d, hd⟩ := exists_of_isOk hbuild
  obtain ⟨-, hash, -, hanswer⟩ := (build_eq_ok hb).mp hd
  have hterms := b.get?_answer "patch_1" hash
  rw [hanswer] at hterms
  obtain ⟨read, -, hentries, -, htypes, -⟩ := h.accepted b.plan (boundPlan_eq_some hb).1 _ _ hd hterms
  obtain rfl := Option.some.inj (hread.symm.trans hentries)
  exact sums_plan.2.2.1 ((hplan ▸ htypes) "MERCHANT_SUBTOTAL")

theorem not_match_summed :
    ¬ TermsMatch host summed DecisionEngine.Sample.bundleInput decision "patch_1" := by
  intro h
  obtain ⟨hbound, hbuild, hread, hlanded⟩ := summed_refused
  obtain ⟨b, hb, hplan⟩ := exists_bound hbound
  obtain ⟨d, hd⟩ := h.complete b hb _ _ hread hlanded (hplan ▸ summed_types)
    (hplan ▸ sums_plan.2.2.2)
  rw [hd] at hbuild
  cases hbuild

end Sample

end CommercialTerms

end SiraApi
