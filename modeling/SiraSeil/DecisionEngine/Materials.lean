-- SUMMARY: Plan materials from recalled packs with their dependency closure, and from current-stack actions.
import SiraSeil.DecisionEngine.Scores

/-!
# Materials

A plan is evaluated on its material. For a recalled pack it is the closure of
its required products, with one cost for the whole bundle and the preference
facts aggregated over the components; for a current action it is the record
itself.
-/

namespace DecisionEngine

open Domain Sorting Raising

variable (rt : Runtime)

/-! ## Plan ids -/

/-- The payload `_plan_id` hashes: a single component is named directly. -/
def planPayload (action : SolutionAction) (componentIds : List String) : Value :=
  match componentIds with
  | [componentId] => .obj [("action", .str action.value), ("component_id", .str componentId)]
  | _ => .obj [("action", .str action.value), ("ordered_component_ids", .strs componentIds)]

/-- `_plan_id` -/
def planId (action : SolutionAction) (componentIds : List String) : Py String := do
  let hash ← contentHash rt (planPayload action componentIds)
  return "plan_" ++ digest20 hash

/-! ## Aggregated preference facts -/

/-- A ratio as a fact value: an integer, or the text `numerator/denominator`. -/
def ratioFact (q : ℚ) : FactValue :=
  if q.den = 1 then .int q.num else .str (toString q.num ++ "/" ++ toString q.den)

def tuple? : FactValue → Option (List String)
  | .tuple xs => some xs
  | _ => none

def bool? : FactValue → Option Bool
  | .bool b => some b
  | _ => none

/-- `SUM`, `MIN` or `MAX` of the numbers of at least one component. -/
def aggregateNumbers (aggregation : Aggregation) (number : ℚ) (numbers : List ℚ) : ℚ :=
  match aggregation with
  | .min => numbers.foldl min number
  | .max => numbers.foldl max number
  | _ => number + numbers.sum

/-- One value for the whole bundle; `none` when the values of the components do not
    have the type that the aggregation needs. -/
def aggregateValues (aggregation : Aggregation) (values : List FactValue) :
    Py (Option FactValue) :=
  match aggregation with
  | .sum | .min | .max =>
    match values.mapM (numeric? rt) with
    | none => .ok none
    | some numbers => do
      match ← numbers.mapM id with
      | [] => return none
      | q :: qs => return some (ratioFact (aggregateNumbers aggregation q qs))
  | .union => .ok ((values.mapM tuple?).map (fun sets => .tuple (sortedSet sets.flatten)))
  | .all => .ok ((values.mapM bool?).map (fun bools => .bool (bools.all id)))
  | .any => .ok ((values.mapM bool?).map (fun bools => .bool (bools.any id)))
  | .primaryComponent => .ok none

/-- The element of a list that has only one. -/
def single? {α : Type} : List α → Option α
  | [a] => some a
  | _ => none

/-- `{item.field: item for item in decision_input.preferences}` -/
def preferenceByField (input : DecisionGraphInput) : Dict String PreferenceCriterion :=
  .ofList (input.preferences.map (fun c => (c.field, c)))

/-- One round of the loop of `_aggregate_preference_facts`. -/
def aggregateField (records : List RawCandidateRecord) (bundleId field : String)
    (aggregation : Aggregation) : Py (List ProductFact) := do
  let perComponent := records.map (fun r => r.facts.filter (fun fact => fact.field = field))
  if aggregation = .primaryComponent then
    return perComponent.getLast?.getD []
  match perComponent.mapM single? with
  | none => return perComponent.flatten
  | some facts =>
    match ← aggregateValues rt aggregation (facts.map (·.value)) with
    | none => return facts
    | some value =>
      let fact ← ProductFact.new
        { field := field, value := value, evidenceIds := .of (facts.flatMap (·.evidenceIds.items)),
          componentId := some bundleId }
      return [fact]

/-- The facts of a bundle: those that no preference reads, and the aggregated ones. -/
def bundleFacts (byField : Dict String PreferenceCriterion) (records : List RawCandidateRecord)
    (bundleId : String) : Py (List ProductFact) := do
  let retained := (records.flatMap (·.facts)).filter (fun fact => !byField.contains fact.field)
  let aggregated ← byField.sortedItems.mapM (fun p =>
    aggregateField rt records bundleId p.1 p.2.aggregation)
  return retained ++ aggregated.flatten

/-- `_aggregate_preference_facts`. The last record is the root of the bundle. -/
def aggregatePreferenceFacts (input : DecisionGraphInput) (records : List RawCandidateRecord) :
    Py (List ProductFact) :=
  match records.length, records.getLast? with
  | 1, _ | _, none => .ok (records.flatMap (·.facts))
  | _, some primary => bundleFacts rt (preferenceByField input) records primary.productId

/-! ## Combined cost -/

/-- The sum of one cost bound over all records, when every record has it. -/
def totalBound (records : List RawCandidateRecord) (costs : List OfferCost) (currency : String)
    (bound : OfferCost → Option Money) : Py (Option Money) :=
  if costs.length ≠ records.length then .ok none
  else
    match costs.mapM bound with
    | none => .ok none
    | some values => some <$> Money.new (values.map (·.cents)).sum currency

/-- The cost of several records, or of one without an offer. -/
def bundleCost (records : List RawCandidateRecord) (costs : List OfferCost) :
    Py (OfferCost × Nat × List String) := do
  let horizons := (costs.map (·.horizonDays)).eraseDups
  let currencies := (costs.flatMap (fun cost =>
    ([cost.low, cost.base, cost.high].filterMap id).map (·.currency))).eraseDups
  let issues :=
    (if costs.length ≠ records.length then ["MISSING_REQUIRED_DEPENDENCY_OFFER"] else []) ++
    (if 1 < horizons.length ∨ 1 < currencies.length then ["INCOMPARABLE_DEPENDENCY_COST"] else [])
  let hash ← contentHash rt (.strs (costs.map (·.offerId)))
  let horizon := (rt.nextNat horizons).getD 1
  let currency := (rt.nextStr currencies).getD "USD"
  let paymentCount := costs.countP (·.paymentRequired)
  let cost ← OfferCost.new
    { offerId := "bundle_" ++ digest20 hash
      low := ← totalBound records costs currency (·.low)
      base := ← totalBound records costs currency (·.base)
      high := ← totalBound records costs currency (·.high)
      horizonDays := horizon
      lineItems := costs.flatMap (·.lineItems)
      paymentRequired := decide (0 < paymentCount) }
  return (cost, paymentCount, sortedSet issues)

/-- `_combined_cost` -/
def combinedCost (records : List RawCandidateRecord) (offers : Dict String OfferCost) :
    Py (OfferCost × Nat × List String) :=
  let costs := records.filterMap (fun r => offers.get? r.offerId)
  match records, costs with
  | [_], [cost] => .ok (cost, if cost.paymentRequired then 1 else 0, [])
  | _, _ => bundleCost rt records costs

/-! ## Dependency closure -/

/-- What the traversal of a bundle has collected. -/
structure ClosureState where
  ordered : List RawCandidateRecord := []
  issues : List String := []
  visited : List String := []

def ClosureState.addIssue (s : ClosureState) (issue : String) : ClosureState :=
  { s with issues := s.issues ++ [issue] }

/-- The record has been expanded. -/
def ClosureState.finish (s : ClosureState) (record : RawCandidateRecord) : ClosureState :=
  { s with visited := record.productId :: s.visited, ordered := s.ordered ++ [record] }

/-- `by_product.get(dependency_id, [])` -/
def byProduct (representatives : List RawCandidateRecord) (dependencyId : String) :
    List RawCandidateRecord :=
  representatives.filter (fun r => r.productId = dependencyId)

/-- `visit`, with the path to the record as `visiting`. The products on a path are
    distinct, so one more round than there are representatives is enough. -/
def visit (representatives : List RawCandidateRecord) :
    Nat → List String → RawCandidateRecord → ClosureState → ClosureState
  | 0, _, _, s => s
  | fuel + 1, visiting, record, s =>
    if record.productId ∈ visiting then s.addIssue "CYCLIC_COMPONENT_DEPENDENCY"
    else if record.productId ∈ s.visited then s
    else
      (record.requiredProductIds.items.foldl (fun s dependencyId =>
        match byProduct representatives dependencyId with
        | [] => s.addIssue "MISSING_REQUIRED_COMPONENT"
        | [dependency] =>
          visit representatives fuel (record.productId :: visiting) dependency s
        | _ => s.addIssue "AMBIGUOUS_REQUIRED_COMPONENT") s).finish record

theorem mem_ordered_visit {representatives : List RawCandidateRecord} {fuel : Nat}
    {visiting : List String} {record r : RawCandidateRecord} {s : ClosureState}
    (h : r ∈ (visit representatives fuel visiting record s).ordered) :
    r ∈ s.ordered ∨ r = record ∨ r ∈ representatives := by
  induction fuel generalizing visiting record r s with
  | zero => exact Or.inl h
  | succ fuel ih =>
    unfold visit at h
    split at h
    · exact Or.inl h
    · split at h
      · exact Or.inl h
      · -- The dependencies are folded into the state one after the other.
        simp only [ClosureState.finish, List.mem_append, List.mem_singleton] at h
        rcases h with h | h
        · refine Or.imp_right Or.inr ?_
          refine List.foldlRecOn (motive := fun t : ClosureState =>
            r ∈ t.ordered → r ∈ s.ordered ∨ r ∈ representatives)
            record.requiredProductIds.items _ Or.inl ?_ h
          intro t ht dependencyId _ hr
          split at hr
          · exact ht hr
          · rename_i dependency hdependency
            have hmem : dependency ∈ byProduct representatives dependencyId := by
              rw [hdependency]
              exact List.mem_singleton_self dependency
            rcases ih hr with hr | rfl | hr
            · exact ht hr
            · exact Or.inr (List.mem_of_mem_filter hmem)
            · exact Or.inr hr
          · exact ht hr
        · exact Or.inr (Or.inl h)

/-- `closure`: the records of a bundle, dependencies first, and its issues. -/
def closure (representatives : List RawCandidateRecord) (root : RawCandidateRecord) :
    List RawCandidateRecord × List String :=
  let s := visit representatives (representatives.length + 1) [] root {}
  (s.ordered, sortedSet s.issues)

theorem closure_subset {representatives : List RawCandidateRecord} {root : RawCandidateRecord}
    (hroot : root ∈ representatives) : (closure representatives root).1 ⊆ representatives := by
  intro r hr
  rcases mem_ordered_visit hr with hr | rfl | hr
  · cases hr
  · exact hroot
  · exact hr

/-! ## Pack materials -/

/-- The loop of `canonical_offer`, which stops on a cycle instead of raising. -/
def followAlias (aliases : Dict String String) : Nat → List String → String → String
  | 0, _, current => current
  | fuel + 1, visited, current =>
    match aliases.get? current with
    | none => current
    | some target =>
      if current ∈ visited then current
      else followAlias aliases fuel (current :: visited) target

/-- `canonical_offer` -/
def canonicalOffer (aliases : Dict String String) (value : String) : String :=
  followAlias aliases (aliases.items.length + 1) [] (fold rt value)

/-- The offers of an input by canonical id. -/
def offerIndex (input : DecisionGraphInput) : Dict String OfferCost :=
  .ofList (input.offers.map (fun o => (canonicalOffer rt (aliasMap input) o.offerId, o)))

/-- `replace(item, offer_id=canonical_offer(item.offer_id))` -/
def withCanonicalOffer (input : DecisionGraphInput) (record : RawCandidateRecord) :
    Py RawCandidateRecord :=
  RawCandidateRecord.new
    { record.toRawCandidateData with offerId := canonicalOffer rt (aliasMap input) record.offerId }

/-- The weakest authority of a bundle; a seller's seal has the least rank. -/
def weakestAuthority (records : List RawCandidateRecord) : PackAuthority :=
  (records.map (·.authority)).foldl (fun a b => if a.rank < b.rank then b else a) .sellerSealed

/-- The field that carries the cost of a plan. -/
def landedTotal : String := "offer.landed_total"

/-- The landed total of a bundle as a fact of one of its components. -/
def costFact (base : Money) (evidence : Ids) (componentId : String) : Py ProductFact :=
  ProductFact.new
    { field := landedTotal, value := .str base.amountText, evidenceIds := evidence,
      componentId := some componentId }

/-- The cost facts of the components `ids`; there are none without a base cost. -/
def costFacts (cost : OfferCost) (evidence : Ids) (ids : List String) : Py (List ProductFact) :=
  match cost.base with
  | none => .ok []
  | some base => ids.mapM (costFact base evidence)

/-- The material of the bundle that `root` needs. -/
def packMaterial (input : DecisionGraphInput) (offers : Dict String OfferCost)
    (representatives : List RawCandidateRecord) (root : RawCandidateRecord) :
    Py PlanMaterial := do
  let (records, dependencyIssues) := closure representatives root
  let (cost, paymentCount, costIssues) ← combinedCost rt records offers
  let rawFacts := records.flatMap (·.facts)
  let costEvidence : Ids := .of
    ((rawFacts.filter (fun fact => fact.field = landedTotal)).flatMap (·.evidenceIds.items))
  let nonCostGateFacts := rawFacts.filter (fun fact => fact.field ≠ landedTotal)
  let gateCostFacts ← costFacts cost costEvidence (records.map (·.productId))
  let aggregated ← aggregatePreferenceFacts rt input records
  let rootCostFacts ← costFacts cost costEvidence [root.productId]
  return {
    sourceId := root.recordId
    action := .replace
    componentId := root.productId
    componentIds := records.map (·.productId)
    facts := aggregated.filter (fun fact => fact.field ≠ landedTotal) ++ rootCostFacts
    gateFacts := nonCostGateFacts ++ gateCostFacts
    cost := cost
    paymentComponentCount := paymentCount
    available := records.all (·.available)
    authority := some (weakestAuthority records)
    sellerGateIds := sortedSet (records.flatMap (·.sellerGateIds.items))
    permittedResolution := none
    outcomeSubjectId := root.productId
    dependencyIssues := sortedSet (dependencyIssues ++ costIssues) }

/-- The recalled packs, with their canonical offers. -/
def packRepresentatives (input : DecisionGraphInput) : Py (List RawCandidateRecord) := do
  let recallResult ← recallAndDeduplicate rt input
  recallResult.representatives.mapM (withCanonicalOffer rt input)

/-- `_pack_materials` -/
def packMaterials (input : DecisionGraphInput) (recallResult : RecallResult) :
    Py (List PlanMaterial) := do
  let representatives ← recallResult.representatives.mapM (withCanonicalOffer rt input)
  representatives.mapM (packMaterial rt input (offerIndex rt input) representatives)

/-! ## Current actions -/

/-- `_current_material` -/
def currentMaterial (item : CurrentActionRecord) : PlanMaterial where
  sourceId := item.actionId
  action := item.action
  componentId := item.instanceId
  componentIds := [item.instanceId]
  facts := item.facts
  gateFacts := item.facts
  cost := item.cost
  paymentComponentCount := 0
  available := item.available
  authority := none
  sellerGateIds := []
  permittedResolution := item.permittedResolution
  outcomeSubjectId :=
    if item.action = .cancel then "cancelled_" ++ item.instanceId else item.instanceId

/-- The materials of an input, packs first. -/
def planMaterials (input : DecisionGraphInput) (recallResult : RecallResult) :
    Py (List PlanMaterial) := do
  return (← packMaterials rt input recallResult) ++ input.currentActions.map currentMaterial

variable {rt} {input : DecisionGraphInput}

theorem planMaterials_eq_ok {recallResult : RecallResult} {materials : List PlanMaterial}
    (hrecall : recallAndDeduplicate rt input = .ok recallResult)
    (hmaterials : planMaterials rt input recallResult = .ok materials) :
    ∃ representatives, packRepresentatives rt input = .ok representatives ∧
      ∃ packs, representatives.mapM
          (packMaterial rt input (offerIndex rt input) representatives) = .ok packs ∧
        materials = packs ++ input.currentActions.map currentMaterial := by
  unfold planMaterials packMaterials at hmaterials
  obtain ⟨packs, hpacks, happend⟩ := bind_eq_ok.mp hmaterials
  obtain ⟨representatives, hrepresentatives, hpacks⟩ := bind_eq_ok.mp hpacks
  obtain rfl := pure_eq_ok.mp happend
  refine ⟨representatives, ?_, packs, hpacks, rfl⟩
  unfold packRepresentatives
  rw [hrecall, ok_bind]
  exact hrepresentatives

end DecisionEngine
