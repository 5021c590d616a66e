-- SUMMARY: Which element a set yields first: the one place an evaluation can observe it, and when the payload does not depend on it.
import SiraSeil.DecisionEngine.Evaluation
import SiraSeil.Domain.Digests
import SiraSeil.Domain.Hashing

/-!
# Set order

`_combined_cost` takes the horizon and the currency of a bundle from sets, with
`next(iter(s))`. The order in which a set is iterated is not fixed, so it is an
arbitrary choice of one element here. Every other stage reads sets in sorted
order and cannot observe the choice.
-/

namespace DecisionEngine

open Domain Sorting Raising

/-! ## Choices -/

/-- What `next(iter(s), None)` returns for sets of strings and of integers. -/
structure SetOrder where
  nextStr : List String → Option String
  nextNat : List Nat → Option Nat
  nextStr_mem : ∀ s x, nextStr s = some x → x ∈ s
  nextStr_none : ∀ s, nextStr s = none → s = []
  nextNat_mem : ∀ s x, nextNat s = some x → x ∈ s
  nextNat_none : ∀ s, nextNat s = none → s = []

/-- The runtime with another order of iteration. -/
def withOrder (rt : Runtime) (order : SetOrder) : Runtime :=
  { rt with
    nextStr := order.nextStr
    nextNat := order.nextNat
    nextStr_mem := order.nextStr_mem
    nextStr_none := order.nextStr_none
    nextNat_mem := order.nextNat_mem
    nextNat_none := order.nextNat_none }

/-- The order of iteration of a runtime. -/
def orderOf (rt : Runtime) : SetOrder where
  nextStr := rt.nextStr
  nextNat := rt.nextNat
  nextStr_mem := rt.nextStr_mem
  nextStr_none := rt.nextStr_none
  nextNat_mem := rt.nextNat_mem
  nextNat_none := rt.nextNat_none

theorem withOrder_orderOf (rt : Runtime) : withOrder rt (orderOf rt) = rt := rfl

namespace SetOrder

/-- Yields `a` first whenever the set has it. -/
def first {α : Type} [DecidableEq α] (a : α) (s : List α) : Option α :=
  if a ∈ s then some a else s.head?

theorem first_of_mem {α : Type} [DecidableEq α] {a : α} {s : List α} (h : a ∈ s) :
    first a s = some a :=
  if_pos h

theorem mem_of_first {α : Type} [DecidableEq α] (a : α) (s : List α) (x : α)
    (h : first a s = some x) : x ∈ s := by
  unfold first at h
  split at h
  · rename_i ha
    exact Option.some.inj h ▸ ha
  · exact List.mem_of_head? h

theorem eq_nil_of_first {α : Type} [DecidableEq α] (a : α) (s : List α)
    (h : first a s = none) : s = [] := by
  unfold first at h
  split at h
  · cases h
  · exact List.head?_eq_none_iff.mp h

/-- The order that yields the given currency and horizon first. -/
def preferring (currency : String) (horizon : Nat) : SetOrder where
  nextStr := first currency
  nextNat := first horizon
  nextStr_mem := mem_of_first currency
  nextStr_none := eq_nil_of_first currency
  nextNat_mem := mem_of_first horizon
  nextNat_none := eq_nil_of_first horizon

end SetOrder

/-! ## The cost of a bundle -/

section Costs

variable {rt : Runtime} {records : List RawCandidateRecord} {costs : List OfferCost}

/-- The currencies that the offers of a bundle quote. -/
def quotedCurrencies (costs : List OfferCost) : List String :=
  costs.flatMap (fun cost => ([cost.low, cost.base, cost.high].filterMap id).map (·.currency))

/-- Every record of the bundle has an offer with this bound. -/
def CompleteBound (records : List RawCandidateRecord) (costs : List OfferCost)
    (bound : OfferCost → Option Money) : Prop :=
  costs.length = records.length ∧ ∀ cost ∈ costs, bound cost ≠ none

/-- The three bounds of a cost. -/
def costBounds : List (OfferCost → Option Money) :=
  [fun cost => cost.low, fun cost => cost.base, fun cost => cost.high]

/-- The cost of the bundle does not depend on what its sets yield first: a single
    offer stands for itself, and otherwise the offers agree on the horizon, and on
    the currency unless no total is formed. -/
def CostSettled (records : List RawCandidateRecord) (costs : List OfferCost) : Prop :=
  (records.length = 1 ∧ costs.length = 1) ∨
    (∀ a ∈ costs, ∀ b ∈ costs, a.horizonDays = b.horizonDays) ∧
      ((∀ a ∈ quotedCurrencies costs, ∀ b ∈ quotedCurrencies costs, a = b) ∨
        ∀ bound ∈ costBounds, ¬ CompleteBound records costs bound)

theorem choice_eq {α : Type} {s : List α} {next next' : List α → Option α}
    (hmem : ∀ s x, next s = some x → x ∈ s) (hnone : ∀ s, next s = none → s = [])
    (hmem' : ∀ s x, next' s = some x → x ∈ s) (hnone' : ∀ s, next' s = none → s = [])
    (h : ∀ a ∈ s, ∀ b ∈ s, a = b) : next s = next' s := by
  cases ha : next s with
  | none =>
    obtain rfl := hnone s ha
    cases hb : next' [] with
    | none => rfl
    | some b => cases hmem' [] b hb
  | some a =>
    cases hb : next' s with
    | none =>
      obtain rfl := hnone' s hb
      cases hmem [] a ha
    | some b => rw [h a (hmem s a ha) b (hmem' s b hb)]

theorem totalBound_eq_none {currency : String} {bound : OfferCost → Option Money}
    (h : ¬ CompleteBound records costs bound) :
    totalBound records costs currency bound = .ok none := by
  unfold totalBound
  split
  · rfl
  · rename_i hlength
    have hmissing : costs.mapM bound = none := by
      refine mapM_eq_none_iff.mpr ?_
      by_contra hnone
      refine h ⟨not_not.mp hlength, fun cost hcost hbound => ?_⟩
      exact hnone ⟨cost, hcost, hbound⟩
    rw [hmissing]

theorem totalBound_eq_ok {currency : String} {bound : OfferCost → Option Money}
    {total : Option Money} (h : CompleteBound records costs bound)
    (htotal : totalBound records costs currency bound = .ok total) :
    ∃ money, total = some money ∧ money.currency = currency := by
  unfold totalBound at htotal
  rw [if_neg (not_not.mpr h.1)] at htotal
  cases hvalues : costs.mapM bound with
  | none =>
    obtain ⟨cost, hcost, hnone⟩ := mapM_eq_none_iff.mp hvalues
    exact absurd hnone (h.2 cost hcost)
  | some values =>
    rw [hvalues] at htotal
    obtain ⟨money, hmoney, rfl⟩ := map_eq_ok.mp htotal
    refine ⟨money, rfl, ?_⟩
    unfold Money.new at hmoney
    split at hmoney
    · split at hmoney
      · cases hmoney
        rfl
      · cases hmoney
    · cases hmoney

theorem horizons_eq_iff :
    (∀ a ∈ (costs.map (·.horizonDays)).eraseDups, ∀ b ∈ (costs.map (·.horizonDays)).eraseDups,
      a = b) ↔ ∀ a ∈ costs, ∀ b ∈ costs, a.horizonDays = b.horizonDays := by
  simp only [List.mem_eraseDups, List.mem_map, forall_exists_index, and_imp,
    forall_apply_eq_imp_iff₂]

theorem bundleCost_eq_ok {cost : OfferCost} {paymentCount : Nat} {issues : List String}
    (h : bundleCost rt records costs = .ok (cost, paymentCount, issues)) :
    cost.horizonDays = (rt.nextNat (costs.map (·.horizonDays)).eraseDups).getD 1 ∧
      ∀ bound ∈ costBounds, totalBound records costs
        ((rt.nextStr (quotedCurrencies costs).eraseDups).getD "USD") bound = .ok (bound cost) := by
  unfold bundleCost at h
  dsimp only at h
  obtain ⟨hash, -, h⟩ := bind_eq_ok.mp h
  obtain ⟨low, hlow, h⟩ := bind_eq_ok.mp h
  obtain ⟨base, hbase, h⟩ := bind_eq_ok.mp h
  obtain ⟨high, hhigh, h⟩ := bind_eq_ok.mp h
  obtain ⟨built, hbuilt, h⟩ := bind_eq_ok.mp h
  obtain ⟨rfl, -, -⟩ := Prod.mk.inj (pure_eq_ok.mp h)
  have hdata := OfferCost.new_eq_ok hbuilt
  refine ⟨congrArg OfferCostData.horizonDays hdata, ?_⟩
  simp only [costBounds, List.forall_mem_cons, List.not_mem_nil, false_implies, implies_true,
    and_true, hdata]
  exact ⟨hlow, hbase, hhigh⟩

theorem combinedCost_withOrder {offers : Dict String OfferCost}
    (h : CostSettled records (records.filterMap (fun r => offers.get? r.offerId)))
    (order order' : SetOrder) :
    combinedCost (withOrder rt order) records offers =
      combinedCost (withOrder rt order') records offers := by
  unfold combinedCost
  generalize records.filterMap (fun r => offers.get? r.offerId) = costs at h
  dsimp only
  split
  · rfl
  · rename_i hseveral
    rcases h with ⟨hrecords, hcosts⟩ | ⟨hhorizons, hbounds⟩
    · obtain ⟨record, rfl⟩ := List.length_eq_one_iff.mp hrecords
      obtain ⟨cost, rfl⟩ := List.length_eq_one_iff.mp hcosts
      exact absurd rfl (hseveral record cost rfl)
    · have hhorizon : order.nextNat (costs.map (·.horizonDays)).eraseDups =
          order'.nextNat (costs.map (·.horizonDays)).eraseDups :=
        choice_eq order.nextNat_mem order.nextNat_none order'.nextNat_mem order'.nextNat_none
          (horizons_eq_iff.mpr hhorizons)
      have htotal : ∀ bound ∈ costBounds,
          totalBound records costs
              ((order.nextStr (quotedCurrencies costs).eraseDups).getD "USD") bound =
            totalBound records costs
              ((order'.nextStr (quotedCurrencies costs).eraseDups).getD "USD") bound := by
        intro bound hbound
        rcases hbounds with hcurrencies | hincomplete
        · rw [choice_eq order.nextStr_mem order.nextStr_none order'.nextStr_mem
            order'.nextStr_none (by simpa only [List.mem_eraseDups] using hcurrencies)]
        · rw [totalBound_eq_none (hincomplete bound hbound),
            totalBound_eq_none (hincomplete bound hbound)]
      simp only [costBounds, List.forall_mem_cons, List.not_mem_nil, false_implies, implies_true,
        and_true] at htotal
      obtain ⟨hlow, hbase, hhigh⟩ := htotal
      unfold bundleCost
      simp only [quotedCurrencies] at hlow hbase hhigh
      simp only [withOrder, hhorizon, hlow, hbase, hhigh]
      rfl

end Costs

/-! ## Settled inputs -/

section Evaluation

variable {rt : Runtime} {input : DecisionGraphInput}

/-- The offers found for the records of a bundle. -/
def bundleOffers (rt : Runtime) (input : DecisionGraphInput) (records : List RawCandidateRecord) :
    List OfferCost :=
  records.filterMap (fun r => (offerIndex rt input).get? r.offerId)

/-- Every bundle of the input has a settled cost. -/
def SettledCosts (rt : Runtime) (input : DecisionGraphInput) : Prop :=
  ∀ representatives, packRepresentatives rt input = .ok representatives →
    ∀ root ∈ representatives, CostSettled (closure representatives root).1
      (bundleOffers rt input (closure representatives root).1)

variable {representatives : List RawCandidateRecord} {root : RawCandidateRecord}

theorem packMaterial_withOrder (h : CostSettled (closure representatives root).1
      (bundleOffers rt input (closure representatives root).1))
    (order order' : SetOrder) :
    packMaterial (withOrder rt order) input (offerIndex rt input) representatives root =
      packMaterial (withOrder rt order') input (offerIndex rt input) representatives root := by
  unfold packMaterial
  dsimp only
  rw [combinedCost_withOrder h order order']
  rfl

theorem packMaterials_withOrder {recallResult : RecallResult}
    (hrecall : recallAndDeduplicate rt input = .ok recallResult) (h : SettledCosts rt input)
    (order order' : SetOrder) :
    packMaterials (withOrder rt order) input recallResult =
      packMaterials (withOrder rt order') input recallResult := by
  have hpacks : packRepresentatives rt input =
      recallResult.representatives.mapM (withCanonicalOffer rt input) := by
    unfold packRepresentatives
    rw [hrecall, ok_bind]
  show (recallResult.representatives.mapM (withCanonicalOffer rt input) >>= fun representatives =>
      representatives.mapM
        (packMaterial (withOrder rt order) input (offerIndex rt input) representatives)) =
    (recallResult.representatives.mapM (withCanonicalOffer rt input) >>= fun representatives =>
      representatives.mapM
        (packMaterial (withOrder rt order') input (offerIndex rt input) representatives))
  rw [← hpacks]
  cases hrepresentatives : packRepresentatives rt input with
  | error e => rfl
  | ok representatives =>
    simp only [ok_bind]
    refine mapM_congr (fun root hroot => ?_)
    exact packMaterial_withOrder (h representatives hrepresentatives root hroot) order order'

/-- With settled costs the whole evaluation is the same in every order, whether it
    returns or raises. -/
theorem evaluateDecisionGraphOnce_withOrder (h : SettledCosts rt input) (order order' : SetOrder)
    (evaluationId : String) (generatedAt : Datetime) :
    evaluateDecisionGraphOnce (withOrder rt order) input evaluationId generatedAt =
      evaluateDecisionGraphOnce (withOrder rt order') input evaluationId generatedAt := by
  have hpipeline : runPipeline (withOrder rt order) input = runPipeline (withOrder rt order') input := by
    show (recallAndDeduplicate rt input >>= fun recallResult => _) =
      (recallAndDeduplicate rt input >>= fun recallResult => _)
    cases hrecall : recallAndDeduplicate rt input with
    | error e => rfl
    | ok recallResult =>
      simp only [ok_bind]
      unfold buildSolutionPlans planMaterials
      rw [packMaterials_withOrder hrecall h order order']
      rfl
  unfold evaluateDecisionGraphOnce
  rw [hpipeline]
  rfl

/-! ## What the payload shows of a cost -/

/-- The member of an object under a name. -/
def member (name : String) : Value → Value
  | .obj fields => (fields.lookup name).getD .null
  | _ => .null

/-- A cost as the payload carries it. -/
def shownCost (cost : OfferCost) : Value :=
  .obj [("low", .opt Money.toValue cost.low), ("base", .opt Money.toValue cost.base),
    ("high", .opt Money.toValue cost.high), ("horizon_days", .nat cost.horizonDays),
    ("payment_required", .bool cost.paymentRequired),
    ("line_items", .seq (cost.lineItems.map lineItemValue))]

theorem horizon_of_shownCost {cost cost' : OfferCost} (h : shownCost cost = shownCost cost') :
    cost.horizonDays = cost'.horizonDays := by
  have hvalue : Value.nat cost.horizonDays = Value.nat cost'.horizonDays :=
    congrArg (member "horizon_days") h
  simpa only [Value.atom.injEq, Atom.int.injEq, Nat.cast_inj] using hvalue

theorem bounds_of_shownCost {cost cost' : OfferCost} (h : shownCost cost = shownCost cost') :
    ∀ bound ∈ costBounds,
      Value.opt Money.toValue (bound cost) = Value.opt Money.toValue (bound cost') := by
  simp only [costBounds, List.forall_mem_cons, List.not_mem_nil, false_implies, implies_true,
    and_true]
  exact ⟨congrArg (member "low") h, congrArg (member "base") h, congrArg (member "high") h⟩

theorem plans_of_payload {evaluation : DecisionGraphEvaluation} {payload : Value}
    (h : evaluationCanonicalPayload evaluation = .ok payload) :
    member "plans" payload = .seq (evaluation.plans.map canonicalPlan) := by
  unfold evaluationCanonicalPayload at h
  obtain ⟨ranked, -, h⟩ := bind_eq_ok.mp h
  obtain ⟨frontier, -, h⟩ := bind_eq_ok.mp h
  obtain ⟨unavailable, -, h⟩ := bind_eq_ok.mp h
  obtain rfl := pure_eq_ok.mp h
  rfl

theorem shownCosts_of_payload {evaluation evaluation' : DecisionGraphEvaluation} {payload : Value}
    (h : evaluationCanonicalPayload evaluation = .ok payload)
    (h' : evaluationCanonicalPayload evaluation' = .ok payload) :
    evaluation.plans.map (fun plan => shownCost plan.dimensions.totalCost) =
      evaluation'.plans.map (fun plan => shownCost plan.dimensions.totalCost) := by
  have hplans : evaluation.plans.map canonicalPlan = evaluation'.plans.map canonicalPlan := by
    have hseq := (plans_of_payload h).symm.trans (plans_of_payload h')
    simpa only [Value.seq.injEq] using hseq
  have hshown := congrArg (List.map (fun v => member "tco" (member "bounds" v))) hplans
  rw [List.map_map, List.map_map] at hshown
  exact hshown

theorem exists_materials {evaluationId : String} {generatedAt : Datetime}
    {evaluation : DecisionGraphEvaluation}
    (h : evaluateDecisionGraphOnce rt input evaluationId generatedAt = .ok evaluation) :
    ∃ recallResult, recallAndDeduplicate rt input = .ok recallResult ∧
      ∃ materials, planMaterials rt input recallResult = .ok materials ∧
        evaluation.plans.map (fun plan => shownCost plan.dimensions.totalCost) =
          (sortedBy PlanMaterial.key materials).map (fun material => shownCost material.cost) := by
  obtain ⟨pipeline, hpipeline, inputHashes, -, payload, -, hash, -, rfl⟩ :=
    evaluateDecisionGraphOnce_eq_ok.mp h
  obtain ⟨hrecall, -, built, hbuilt, -, hplaced⟩ := runPipeline_eq_ok hpipeline
  unfold buildSolutionPlans at hbuilt
  obtain ⟨materials, hmaterials, hbuilt⟩ := bind_eq_ok.mp hbuilt
  refine ⟨pipeline.recallResult, hrecall, materials, hmaterials, ?_⟩
  show pipeline.plans.map (fun plan => shownCost plan.dimensions.totalCost) = _
  rw [hplaced, List.map_map]
  refine map_eq_of_mapM_eq_ok hbuilt (fun material _ plan hplan => ?_)
  rw [← (builtFrom_of_buildPlan hplan).cost]
  rfl

theorem key_packMaterial {offers : Dict String OfferCost} {material : PlanMaterial}
    (h : packMaterial rt input offers representatives root = .ok material) :
    material.key =
      toLex (SolutionAction.replace.value, toLex (root.productId, root.recordId)) := by
  unfold packMaterial at h
  simp only [bind_eq_ok, pure_eq_ok] at h
  obtain ⟨_, -, _, -, _, -, _, -, rfl⟩ := h
  rfl

theorem shownCost_of_payload {order order' : SetOrder} {evaluationId : String}
    {generatedAt : Datetime} {evaluation evaluation' : DecisionGraphEvaluation}
    (h : evaluateDecisionGraphOnce (withOrder rt order) input evaluationId generatedAt =
      .ok evaluation)
    (h' : evaluateDecisionGraphOnce (withOrder rt order') input evaluationId generatedAt =
      .ok evaluation')
    (hpayload : evaluationCanonicalPayload evaluation = evaluationCanonicalPayload evaluation')
    (hpacks : packRepresentatives rt input = .ok representatives) (hroot : root ∈ representatives) :
    ∃ material material',
      packMaterial (withOrder rt order) input (offerIndex rt input) representatives root =
          .ok material ∧
        packMaterial (withOrder rt order') input (offerIndex rt input) representatives root =
          .ok material' ∧
        shownCost material.cost = shownCost material'.cost := by
  obtain ⟨recallResult, hrecall, materials, hmaterials, hcosts⟩ := exists_materials h
  obtain ⟨recallResult', hrecall', materials', hmaterials', hcosts'⟩ := exists_materials h'
  obtain ⟨own, hown, packs, hpack, rfl⟩ := planMaterials_eq_ok hrecall hmaterials
  obtain ⟨own', hown', packs', hpack', rfl⟩ := planMaterials_eq_ok hrecall' hmaterials'
  -- Recall does not read the order, so both runs start from the same packs.
  obtain rfl : own = representatives := Except.ok.inj (hown.symm.trans hpacks)
  obtain rfl : own' = own := Except.ok.inj (hown'.symm.trans hpacks)
  have hkeys : packs.map PlanMaterial.key = packs'.map PlanMaterial.key :=
    (map_eq_of_mapM_eq_ok hpack (fun _ _ _ => key_packMaterial)).trans
      (map_eq_of_mapM_eq_ok hpack' (fun _ _ _ => key_packMaterial)).symm
  obtain ⟨payload, hvalue⟩ : ∃ payload, evaluationCanonicalPayload evaluation = .ok payload := by
    obtain ⟨pipeline, -, inputHashes, -, payload, hvalue, hash, -, rfl⟩ :=
      evaluateDecisionGraphOnce_eq_ok.mp h
    exact ⟨payload, hvalue⟩
  have hshown := shownCosts_of_payload hvalue (hpayload ▸ hvalue)
  rw [hcosts, hcosts'] at hshown
  have hall := map_eq_of_sortedBy (by rw [List.map_append, List.map_append, hkeys]) hshown
  rw [List.map_append, List.map_append] at hall
  have hlength : packs.length = packs'.length := by
    rw [← List.length_map PlanMaterial.key, hkeys, List.length_map]
  obtain ⟨hpackCosts, -⟩ := List.append_inj hall (by rw [List.length_map, List.length_map, hlength])
  exact exists_of_mapM_map_eq hpack hpack' hpackCosts hroot

theorem combinedCost_of_several {records : List RawCandidateRecord}
    {offers : Dict String OfferCost}
    (h : ¬ (records.length = 1 ∧
      (records.filterMap (fun r => offers.get? r.offerId)).length = 1)) :
    combinedCost rt records offers =
      bundleCost rt records (records.filterMap (fun r => offers.get? r.offerId)) := by
  unfold combinedCost
  dsimp only
  split
  · rename_i hcosts
    refine absurd ⟨rfl, ?_⟩ h
    rw [hcosts]
    rfl
  · rfl

theorem bundleCost_of_packMaterial {material : PlanMaterial}
    (hseveral : ¬ ((closure representatives root).1.length = 1 ∧
      (bundleOffers rt input (closure representatives root).1).length = 1))
    (h : packMaterial rt input (offerIndex rt input) representatives root = .ok material) :
    ∃ paymentCount issues, bundleCost rt (closure representatives root).1
      (bundleOffers rt input (closure representatives root).1) =
        .ok (material.cost, paymentCount, issues) := by
  unfold packMaterial at h
  dsimp only at h
  obtain ⟨⟨cost, paymentCount, issues⟩, hcost, h⟩ := bind_eq_ok.mp h
  rw [combinedCost_of_several hseveral] at hcost
  simp only [bind_eq_ok, pure_eq_ok] at h
  obtain ⟨_, -, _, -, _, -, rfl⟩ := h
  exact ⟨paymentCount, issues, hcost⟩

/-! ## Independence of the order -/

/-- The payload that an evaluation hashes when sets are iterated in an order. -/
def payloadIn (rt : Runtime) (input : DecisionGraphInput) (evaluationId : String)
    (generatedAt : Datetime) (order : SetOrder) : Py Value := do
  let evaluation ←
    evaluateDecisionGraphOnce (withOrder rt order) input evaluationId generatedAt
  evaluationCanonicalPayload evaluation

/-- The payload hash of an evaluation when sets are iterated in an order. -/
def payloadHashIn (rt : Runtime) (input : DecisionGraphInput) (evaluationId : String)
    (generatedAt : Datetime) (order : SetOrder) : Py String := do
  let evaluation ←
    evaluateDecisionGraphOnce (withOrder rt order) input evaluationId generatedAt
  return evaluation.evaluationPayloadHash

/-- An evaluation hashes and carries the same whatever its sets yield first. -/
def OrderIndependent (rt : Runtime) (input : DecisionGraphInput) (evaluationId : String)
    (generatedAt : Datetime) : Prop :=
  ∀ order order' : SetOrder,
    payloadIn rt input evaluationId generatedAt order =
        payloadIn rt input evaluationId generatedAt order' ∧
      payloadHashIn rt input evaluationId generatedAt order =
        payloadHashIn rt input evaluationId generatedAt order'

section Independent

variable {evaluationId : String} {generatedAt : Datetime} {evaluation : DecisionGraphEvaluation}
  (h : evaluateDecisionGraphOnce rt input evaluationId generatedAt = .ok evaluation)
  (hsame : OrderIndependent rt input evaluationId generatedAt)
include h hsame

theorem OrderIndependent.exists_evaluation (order : SetOrder) :
    ∃ evaluation', evaluateDecisionGraphOnce (withOrder rt order) input evaluationId generatedAt =
      .ok evaluation' ∧
        evaluationCanonicalPayload evaluation' = evaluationCanonicalPayload evaluation := by
  have hpayload := (hsame order (orderOf rt)).1
  have hown : payloadIn rt input evaluationId generatedAt (orderOf rt) =
      evaluationCanonicalPayload evaluation := by
    unfold payloadIn
    rw [withOrder_orderOf, h, ok_bind]
  obtain ⟨pipeline, -, inputHashes, -, payload, hvalue, hash, -, rfl⟩ :=
    evaluateDecisionGraphOnce_eq_ok.mp h
  rw [hown] at hpayload
  obtain ⟨evaluation', hevaluation, hvalue'⟩ :=
    bind_eq_ok.mp (hpayload.trans hvalue)
  exact ⟨evaluation', hevaluation, hvalue'.trans hvalue.symm⟩

theorem OrderIndependent.exists_bundleCosts {representatives : List RawCandidateRecord}
    (hpacks : packRepresentatives rt input = .ok representatives) {root : RawCandidateRecord}
    (hroot : root ∈ representatives)
    (hseveral : ¬ ((closure representatives root).1.length = 1 ∧
      (bundleOffers rt input (closure representatives root).1).length = 1))
    (order order' : SetOrder) :
    ∃ cost cost' : OfferCost, shownCost cost = shownCost cost' ∧
      (∃ paymentCount issues, bundleCost (withOrder rt order) (closure representatives root).1
        (bundleOffers rt input (closure representatives root).1) =
          .ok (cost, paymentCount, issues)) ∧
      ∃ paymentCount issues, bundleCost (withOrder rt order') (closure representatives root).1
        (bundleOffers rt input (closure representatives root).1) =
          .ok (cost', paymentCount, issues) := by
  obtain ⟨first, hfirst, hpayload⟩ := hsame.exists_evaluation h order
  obtain ⟨second, hsecond, hpayload'⟩ := hsame.exists_evaluation h order'
  obtain ⟨material, material', hmaterial, hmaterial', hshown⟩ :=
    shownCost_of_payload hfirst hsecond (hpayload.trans hpayload'.symm) hpacks hroot
  exact ⟨material.cost, material'.cost, hshown, bundleCost_of_packMaterial hseveral hmaterial,
    bundleCost_of_packMaterial hseveral hmaterial'⟩

end Independent

/-- The payload and its hash do not depend on what sets yield first exactly when
    every bundle has a settled cost. -/
theorem orderIndependent_iff_settledCosts {evaluationId : String} {generatedAt : Datetime}
    {evaluation : DecisionGraphEvaluation}
    (h : evaluateDecisionGraphOnce rt input evaluationId generatedAt = .ok evaluation) :
    OrderIndependent rt input evaluationId generatedAt ↔ SettledCosts rt input := by
  constructor
  · intro hsame representatives hpacks root hroot
    by_contra hunsettled
    obtain ⟨hseveral, hmixed⟩ := not_or.mp hunsettled
    have hcosts := hsame.exists_bundleCosts h hpacks hroot hseveral
    rw [not_and_or] at hmixed
    rcases hmixed with hhorizons | hcurrencies
    · -- Two horizons: the orders that prefer the one and the other show them.
      push Not at hhorizons
      obtain ⟨a, ha, b, hb, hne⟩ := hhorizons
      obtain ⟨cost, cost', hshown, ⟨_, _, hcost⟩, ⟨_, _, hcost'⟩⟩ :=
        hcosts (.preferring "" a.horizonDays) (.preferring "" b.horizonDays)
      have hleft := (bundleCost_eq_ok hcost).1
      have hright := (bundleCost_eq_ok hcost').1
      have hmem : ∀ c ∈ bundleOffers rt input (closure representatives root).1,
          c.horizonDays ∈ ((bundleOffers rt input (closure representatives root).1).map
            (·.horizonDays)).eraseDups :=
        fun c hc => List.mem_eraseDups.mpr (List.mem_map_of_mem hc)
      simp only [withOrder, SetOrder.preferring] at hleft hright
      rw [SetOrder.first_of_mem (hmem a ha)] at hleft
      rw [SetOrder.first_of_mem (hmem b hb)] at hright
      exact hne (hleft.symm.trans ((horizon_of_shownCost hshown).trans hright))
    · -- Two currencies and a complete bound: its total shows the chosen currency.
      push Not at hcurrencies
      obtain ⟨⟨a, ha, b, hb, hne⟩, bound, hbound, hcomplete⟩ := hcurrencies
      obtain ⟨cost, cost', hshown, ⟨_, _, hcost⟩, ⟨_, _, hcost'⟩⟩ :=
        hcosts (.preferring a 0) (.preferring b 0)
      have hleft := (bundleCost_eq_ok hcost).2 bound hbound
      have hright := (bundleCost_eq_ok hcost').2 bound hbound
      simp only [withOrder, SetOrder.preferring] at hleft hright
      rw [SetOrder.first_of_mem (List.mem_eraseDups.mpr ha)] at hleft
      rw [SetOrder.first_of_mem (List.mem_eraseDups.mpr hb)] at hright
      obtain ⟨money, hmoney, hcurrency⟩ := totalBound_eq_ok hcomplete hleft
      obtain ⟨money', hmoney', hcurrency'⟩ := totalBound_eq_ok hcomplete hright
      have hvalue := bounds_of_shownCost hshown bound hbound
      rw [hmoney, hmoney'] at hvalue
      have hstr : Value.str money.currency = Value.str money'.currency :=
        congrArg (member "currency") hvalue
      simp only [Value.atom.injEq, Atom.str.injEq] at hstr
      exact hne (hcurrency.symm.trans (hstr.trans hcurrency'))
  · intro hsettled order order'
    have heq := evaluateDecisionGraphOnce_withOrder hsettled order order' evaluationId generatedAt
    unfold payloadIn payloadHashIn
    rw [heq]
    exact ⟨rfl, rfl⟩

end Evaluation

/-! ## A bundle in two currencies -/

namespace Sample

def euros : Money where
  cents := 1000
  currency := "EUR"
  cents_lt := thousand_cents_lt

def euroOffer : OfferCost where
  offerId := "offer_sso"
  low := some euros
  base := some euros
  high := some euros
  horizonDays := 365

/-- A product and the one it requires, quoted in different currencies. -/
def mixedInput : DecisionGraphInput :=
  { input with
    candidates :=
      [{ crm with facts := [], admitted := by decide +kernel },
        { sso with facts := [], admitted := by decide +kernel }]
    offers := [crmOffer, euroOffer]
    preferences := []
    currentActions := []
    outcomeValues := []
    candidates_nodup := by decide +kernel
    offers_nodup := by decide +kernel
    preferences_nodup := by decide +kernel
    currentActions_nodup := noActions_nodup }

end Sample

/-- The currencies in which the plans of a payload show their base cost. -/
def shownCurrencies (payload : Value) : List (Option String) :=
  match member "plans" payload with
  | .seq plans => plans.map (fun plan =>
      match member "currency" (member "base" (member "tco" (member "bounds" plan))) with
      | .atom (.str currency) => some currency
      | _ => none)
  | _ => []

theorem shownCurrencies_dollars :
    (payloadIn .ascii Sample.mixedInput "base" Sample.now (.preferring "USD" 365)).toOption.map
      shownCurrencies = some [some "USD", some "EUR"] := by
  rw [Runtime.ascii_eq]
  decide +kernel

theorem shownCurrencies_euros :
    (payloadIn .ascii Sample.mixedInput "base" Sample.now (.preferring "EUR" 365)).toOption.map
      shownCurrencies = some [some "EUR", some "EUR"] := by
  rw [Runtime.ascii_eq]
  decide +kernel

/-- Two runs that differ only in the iteration of a set of currencies hash
    different payloads. -/
theorem payload_depends_on_set_order :
    ¬ OrderIndependent .ascii Sample.mixedInput "base" Sample.now := by
  intro hsame
  have hpayload := (hsame (.preferring "USD" 365) (.preferring "EUR" 365)).1
  have hshown := congrArg (fun run => run.toOption.map shownCurrencies) hpayload
  have hcurrencies := shownCurrencies_dollars.symm.trans (hshown.trans shownCurrencies_euros)
  exact absurd hcurrencies (by decide)

/-- In the order that yields dollars first the sample is evaluated, and its cost is
    not settled. -/
theorem orderIndependent_iff_settledCosts_sample :
    OrderIndependent (withOrder .ascii (.preferring "USD" 365)) Sample.mixedInput "base"
        Sample.now ↔
      SettledCosts (withOrder .ascii (.preferring "USD" 365)) Sample.mixedInput := by
  obtain ⟨payload, hpayload, -⟩ := Option.map_eq_some_iff.mp shownCurrencies_dollars
  cases hrun : evaluateDecisionGraphOnce (withOrder .ascii (.preferring "USD" 365))
      Sample.mixedInput "base" Sample.now with
  | ok evaluation => exact orderIndependent_iff_settledCosts hrun
  | error e =>
    unfold payloadIn at hpayload
    rw [hrun] at hpayload
    cases hpayload

end DecisionEngine
