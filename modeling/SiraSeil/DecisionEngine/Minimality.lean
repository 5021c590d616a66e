-- SUMMARY: The counterfactual search finds the smallest sets of private facts whose removal changes the winner, and all of them.
import SiraSeil.DecisionEngine.Counterfactual
import SiraSeil.Domain.Hashing

/-!
# Minimality of counterfactuals

A set of facts is a sorted tuple of ids. The sets the search tries are exactly
the small sets of active private facts, because a sorted tuple with elements of
the sorted list of private ids is one of its sublists; the rest is the
specification of the generic subset search.
-/

namespace DecisionEngine

open Domain Sorting SubsetSearch Raising

variable {rt : Runtime} {input : DecisionGraphInput} {base generic : DecisionGraphEvaluation}

/-! ## Removable sets -/

/-- At most `limit` active private facts. -/
structure Removable (input : DecisionGraphInput) (limit : Nat) (facts : Ids) : Prop where
  active : ∀ id ∈ facts.items, id ∈ activePrivateIds input
  small : facts.items.length ≤ limit

/-- The rerun without these facts selects another plan than the base evaluation. -/
def ChangesWinner (rt : Runtime) (input : DecisionGraphInput) (base : DecisionGraphEvaluation)
    (facts : Ids) : Prop :=
  ∃ alternate, evaluateDecisionGraphOnce rt (input.removing facts.items)
      "counterfactual_evaluation_id" base.generatedAt = .ok alternate ∧
    alternate.selectedPlanId ≠ base.selectedPlanId

theorem activePrivateIds_pairwise_lt (input : DecisionGraphInput) :
    (activePrivateIds input).Pairwise (· < ·) := by
  have hnodup : (activePrivateIds input).Nodup := by
    refine (sortedBy_perm id _).nodup_iff.mpr ?_
    exact input.buyerFacts_nodup.sublist (List.filter_sublist.map _)
  have hle : (activePrivateIds input).Pairwise (· ≤ ·) := sortedBy_pairwise id _
  exact (hle.and hnodup).imp (fun h => lt_of_le_of_ne h.1 h.2)

variable {k limit : Nat} {facts : Ids} {removed : List String}

theorem Removable.sublist (h : Removable input limit facts) :
    facts.items.Sublist (activePrivateIds input) :=
  sublist_of_subset facts.sorted (activePrivateIds_pairwise_lt input) h.active

/-- A sublist of the private ids, as a set of facts. -/
def factSet (input : DecisionGraphInput) (removed : List String)
    (h : removed.Sublist (activePrivateIds input)) : Ids :=
  ⟨removed, (activePrivateIds_pairwise_lt input).sublist h⟩

theorem removing_nil (input : DecisionGraphInput) : input.removing [] = input := by
  have hsame : input.removedPrivateFactIds.union [] = input.removedPrivateFactIds := by
    apply SortedTuple.ext_mem
    simp
  unfold DecisionGraphInput.removing
  rw [hsame]
  rfl

theorem genericInput_eq (input : DecisionGraphInput) :
    input.genericInput = input.removing (activePrivateIds input) := by
  unfold DecisionGraphInput.genericInput DecisionGraphInput.removing
  congr 1
  apply SortedTuple.ext_mem
  intro id
  simp only [SortedTuple.mem_items_union, activePrivateIds, mem_sortedBy, List.mem_map,
    List.mem_filter, Bool.and_eq_true, decide_eq_true_eq]
  constructor
  · rintro (hold | ⟨fact, ⟨hfact, hprivate⟩, rfl⟩)
    · exact Or.inl hold
    · by_cases hremoved : fact.factId ∈ input.removedPrivateFactIds.items
      · exact Or.inl hremoved
      · exact Or.inr ⟨fact, ⟨hfact, hprivate, hremoved⟩, rfl⟩
  · rintro (hold | ⟨fact, ⟨hfact, hprivate, -⟩, rfl⟩)
    · exact Or.inl hold
    · exact Or.inr ⟨fact, ⟨hfact, hprivate⟩, rfl⟩

theorem ChangesWinner.ne_nil {evaluationId : String} {generatedAt : Datetime}
    (hbase : evaluateDecisionGraphOnce rt input evaluationId generatedAt = .ok base)
    (h : ChangesWinner rt input base facts) : facts.items ≠ [] := by
  intro hempty
  obtain ⟨alternate, halternate, hne⟩ := h
  rw [hempty, removing_nil, evaluateDecisionGraphOnce_relabel hbase] at halternate
  cases halternate
  exact hne rfl

/-! ## The search -/

/-- What a rerun that returns says about a set of facts. -/
def verdict (rt : Runtime) (input : DecisionGraphInput) (base : DecisionGraphEvaluation)
    (removed : List String) : Option DecisionGraphEvaluation :=
  match rerun rt input base removed with
  | .ok result => result
  | .error _ => none

theorem rerun_eq_verdict (facts : Ids)
    (h : ∃ alternate, evaluateDecisionGraphOnce rt (input.removing facts.items)
      "counterfactual_evaluation_id" base.generatedAt = .ok alternate) :
    rerun rt input base facts.items = .ok (verdict rt input base facts.items) := by
  obtain ⟨alternate, halternate⟩ := h
  simp only [verdict, rerun, halternate, ok_bind]
  rfl

theorem verdict_isSome_iff :
    (verdict rt input base facts.items).isSome ↔ ChangesWinner rt input base facts := by
  unfold verdict rerun ChangesWinner
  cases evaluateDecisionGraphOnce rt (input.removing facts.items) "counterfactual_evaluation_id"
      base.generatedAt with
  | error e => simp
  | ok alternate =>
    simp only [ok_bind, Except.ok.injEq, exists_eq_left']
    by_cases hsame : alternate.selectedPlanId = base.selectedPlanId <;>
      simp [hsame, pure, Except.pure]

/-- The ids of the winners of one size. -/
def winningSets (rt : Runtime) (input : DecisionGraphInput) (base : DecisionGraphEvaluation)
    (k : Nat) : List (List String) :=
  (combinations k (activePrivateIds input)).filter (fun c => (verdict rt input base c).isSome)

theorem winningSets_pairwise_lt (rt : Runtime) (input : DecisionGraphInput)
    (base : DecisionGraphEvaluation) (k : Nat) :
    (winningSets rt input base k).Pairwise (· < ·) :=
  (combinations_pairwise_lt (activePrivateIds_pairwise_lt input) k).filter _

theorem mem_winningSets :
    removed ∈ winningSets rt input base k ↔
      ∃ facts : Ids, facts.items = removed ∧ facts.items.length = k ∧
        (∀ id ∈ facts.items, id ∈ activePrivateIds input) ∧ ChangesWinner rt input base facts := by
  simp only [winningSets, List.mem_filter, mem_combinations]
  constructor
  · rintro ⟨⟨hsub, hlen⟩, hwin⟩
    exact ⟨factSet input removed hsub, rfl, hlen, fun id hid => hsub.subset hid,
      verdict_isSome_iff.mp hwin⟩
  · rintro ⟨facts, rfl, hlen, hactive, hwin⟩
    exact ⟨⟨sublist_of_subset facts.sorted (activePrivateIds_pairwise_lt input) hactive, hlen⟩,
      verdict_isSome_iff.mpr hwin⟩

theorem map_fst_winners (k : Nat) :
    ((combinations k (activePrivateIds input)).filterMap
      (fun c => (verdict rt input base c).map (fun e => (c, e)))).map Prod.fst =
      winningSets rt input base k := by
  unfold winningSets
  induction combinations k (activePrivateIds input) with
  | nil => rfl
  | cons c cs ih =>
    cases hc : verdict rt input base c <;> simp [hc, ih]

theorem counterfactualRecord_spec (generic : DecisionGraphEvaluation) (limit : Nat)
    {winners : List (List String × DecisionGraphEvaluation)}
    (hw : winners.map Prod.fst = winningSets rt input base k) (hne : winners ≠ []) :
    ∃ removed others, winningSets rt input base k = removed :: others ∧
      (counterfactualRecord base generic limit winners).outcome = .winnerChanged ∧
      (counterfactualRecord base generic limit winners).removedFactIds = removed ∧
      (counterfactualRecord base generic limit winners).alternativeFactIdSets = others := by
  have hsorted : sortedBy Prod.fst winners = winners := by
    apply sortedBy_of_pairwise
    have hlt : (winners.map Prod.fst).Pairwise (· < ·) := hw ▸ winningSets_pairwise_lt rt input base k
    exact (List.pairwise_map.mp hlt).imp (fun h => h.le)
  cases winners with
  | nil => exact absurd rfl hne
  | cons w ws =>
    refine ⟨w.1, ws.map Prod.fst, hw.symm, ?_⟩
    unfold counterfactualRecord
    rw [hsorted]
    exact ⟨rfl, rfl, rfl⟩

theorem counterfactualPayload_canonical {record : CounterfactualRecord}
    (h : record.testedLimit ≤ 3) : (counterfactualPayload record).Canonical := by
  simp only [counterfactualPayload, Value.canonical_obj, List.forall_mem_cons]
  simp
  omega

theorem counterfactualRecord_testedLimit (limit : Nat)
    (winners : List (List String × DecisionGraphEvaluation)) :
    (counterfactualRecord base generic limit winners).testedLimit = limit := by
  unfold counterfactualRecord
  cases sortedBy Prod.fst winners <;> rfl

/-- The cardinalities the search tries. -/
def levels (input : DecisionGraphInput) (limit : Nat) : List Nat :=
  List.range' 1 (min limit (activePrivateIds input).length)

theorem Removable.length_mem_levels (h : Removable input limit facts) (hne : facts.items ≠ []) :
    facts.items.length ∈ levels input limit := by
  have hpos : 0 < facts.items.length := List.length_pos_iff.mpr hne
  have hsmall : facts.items.length ≤ min limit (activePrivateIds input).length :=
    le_min h.small h.sublist.length_le
  exact List.mem_range'_1.mpr (by omega)

theorem removable_of_mem_levels (hsub : removed.Sublist (activePrivateIds input))
    (hlen : removed.length ∈ levels input limit) :
    Removable input limit (factSet input removed hsub) := by
  have hrange := List.mem_range'_1.mp hlen
  have hmin : min limit (activePrivateIds input).length ≤ limit := min_le_left _ _
  exact ⟨fun id hid => hsub.subset hid, show removed.length ≤ limit by omega⟩

/-- `facts` is the smallest set that changes the winner, the first of its size, and
    `alternatives` lists the others of that size in order. -/
structure SmallestWinner (rt : Runtime) (input : DecisionGraphInput)
    (base : DecisionGraphEvaluation) (limit : Nat) (facts : Ids)
    (alternatives : List (List String)) : Prop where
  removable : Removable input limit facts
  changes : ChangesWinner rt input base facts
  minimum : ∀ other, Removable input limit other → ChangesWinner rt input base other →
    facts.items.length ≤ other.items.length
  least : ∀ other, Removable input limit other → ChangesWinner rt input base other →
    other.items.length = facts.items.length → facts.items ≤ other.items
  sorted : alternatives.Pairwise (· < ·)
  complete : ∀ removed, removed ∈ alternatives ↔
    ∃ other : Ids, other.items = removed ∧ Removable input limit other ∧
      ChangesWinner rt input base other ∧ other.items.length = facts.items.length ∧ other ≠ facts

theorem smallestWinner_of_winningSets {evaluationId : String} {generatedAt : Datetime}
    {others : List (List String)}
    (hbase : evaluateDecisionGraphOnce rt input evaluationId generatedAt = .ok base)
    (hk : k ∈ levels input limit) (hsets : winningSets rt input base k = removed :: others)
    (hless : ∀ c, c.Sublist (activePrivateIds input) → c.length ∈ levels input limit →
      c.length < k → verdict rt input base c = none) :
    ∃ facts : Ids, facts.items = removed ∧ SmallestWinner rt input base limit facts others := by
  obtain ⟨facts, hitems, hlen, hactive, hchanges⟩ :=
    mem_winningSets.mp (hsets ▸ List.mem_cons_self : removed ∈ winningSets rt input base k)
  have hsmall : ∀ other : Ids, other.items.length = k → other.items.length ≤ limit := by
    intro other hother
    have hrange := List.mem_range'_1.mp hk
    have hmin : min limit (activePrivateIds input).length ≤ limit := min_le_left _ _
    omega
  have hsorted := winningSets_pairwise_lt rt input base k
  rw [hsets] at hsorted
  obtain ⟨hfirst, hothers⟩ := List.pairwise_cons.mp hsorted
  refine ⟨facts, hitems, ⟨⟨hactive, hsmall facts hlen⟩, hchanges, ?_, ?_, hothers, ?_⟩⟩
  · intro other hrem hwin
    by_contra hlt
    have hnone := hless other.items hrem.sublist
      (hrem.length_mem_levels (hwin.ne_nil hbase)) (by omega)
    have hsome := verdict_isSome_iff.mpr hwin
    simp [hnone] at hsome
  · intro other hrem hwin hsize
    have hmem : other.items ∈ removed :: others :=
      hsets ▸ mem_winningSets.mpr ⟨other, rfl, hsize.trans hlen, hrem.active, hwin⟩
    rcases List.mem_cons.mp hmem with heq | hmem
    · exact (hitems.trans heq.symm).le
    · exact hitems ▸ (hfirst _ hmem).le
  · intro candidate
    constructor
    · intro hmem
      obtain ⟨other, rfl, hsize, hact, hwin⟩ := mem_winningSets.mp
        (hsets ▸ List.mem_cons_of_mem removed hmem : candidate ∈ winningSets rt input base k)
      refine ⟨other, rfl, ⟨hact, hsmall other hsize⟩, hwin, hsize.trans hlen.symm, ?_⟩
      rintro rfl
      exact lt_irrefl _ (hitems ▸ hfirst _ hmem)
    · rintro ⟨other, rfl, hrem, hwin, hsize, hne⟩
      have hmem : other.items ∈ removed :: others :=
        hsets ▸ mem_winningSets.mpr ⟨other, rfl, hsize.trans hlen, hrem.active, hwin⟩
      rcases List.mem_cons.mp hmem with heq | hmem
      · refine absurd (SortedTuple.ext_mem (fun id => ?_)) hne
        rw [heq, hitems]
      · exact hmem

/-- When every rerun returns, the search returns, reports a change exactly when some
    small set of active private facts changes the winner, and then names the
    smallest such set with all its alternatives. -/
theorem searchPrivateFactCounterfactuals_minimal {limit : Nat} {evaluationId : String}
    {generatedAt : Datetime} (hlimit : 1 ≤ limit ∧ limit ≤ 3)
    (hbase : evaluateDecisionGraphOnce rt input evaluationId generatedAt = .ok base)
    (hgeneric : evaluateDecisionGraphOnce rt input.genericInput "generic_evaluation_id"
      generatedAt = .ok generic)
    (hreruns : ∀ facts, Removable input limit facts →
      ∃ alternate, evaluateDecisionGraphOnce rt (input.removing facts.items)
        "counterfactual_evaluation_id" base.generatedAt = .ok alternate) :
    ∃ record, searchPrivateFactCounterfactuals rt input base generic limit = .ok record ∧
      (record.outcome = .winnerChanged ↔
        ∃ facts, Removable input limit facts ∧ ChangesWinner rt input base facts) ∧
      (record.outcome = .winnerChanged →
        ∃ facts : Ids, record.removedFactIds = facts.items ∧
          SmallestWinner rt input base limit facts record.alternativeFactIdSets) ∧
      ((activePrivateIds input).length ≤ limit →
        generic.selectedPlanId ≠ base.selectedPlanId → record.outcome = .winnerChanged) := by
  have hlevels : (levels input limit).Pairwise (· < ·) := List.pairwise_lt_range'
  obtain ⟨winners, hsearch, hfound⟩ := search_eq_ok (rerun rt input base)
    (verdict rt input base) (activePrivateIds input) hlevels (fun c hsub hlen =>
      rerun_eq_verdict (factSet input c hsub) (hreruns _ (removable_of_mem_levels hsub hlen)))
  have hcanonical : (counterfactualPayload
      (counterfactualRecord base generic limit winners)).Canonical :=
    counterfactualPayload_canonical
      ((counterfactualRecord_testedLimit limit winners).le.trans hlimit.2)
  obtain ⟨hash, hhash⟩ : ∃ hash, contentHash rt _ = .ok hash := exists_contentHash_eq_ok.mpr hcanonical
  have hresult : searchPrivateFactCounterfactuals rt input base generic limit =
      .ok { counterfactualRecord base generic limit winners with recordHash := hash } := by
    unfold searchPrivateFactCounterfactuals
    unfold levels at hsearch
    simp only [demand, hlimit, and_self, decide_true, ↓reduceIte, ok_bind, hsearch, hhash]
    rfl
  have hchanged : (counterfactualRecord base generic limit winners).outcome = .winnerChanged ↔
      ∃ facts, Removable input limit facts ∧ ChangesWinner rt input base facts := by
    by_cases hempty : winners = []
    · subst hempty
      refine iff_of_false (by simp [counterfactualRecord, sortedBy]) ?_
      rintro ⟨facts, hrem, hwin⟩
      have hnone := hfound.none_passes rfl facts.items hrem.sublist
        (hrem.length_mem_levels (hwin.ne_nil hbase))
      simpa [hnone] using verdict_isSome_iff.mpr hwin
    · obtain ⟨k, hk, rfl, hless⟩ := hfound.least hempty
      obtain ⟨removed, others, hsets, houtcome, -, -⟩ :=
        counterfactualRecord_spec generic limit (map_fst_winners k) hempty
      obtain ⟨facts, -, hsmallest⟩ := smallestWinner_of_winningSets hbase hk hsets hless
      exact iff_of_true houtcome ⟨facts, hsmallest.removable, hsmallest.changes⟩
  refine ⟨_, hresult, hchanged, ?_, ?_⟩
  · intro houtcome
    have hne : winners ≠ [] := by
      rintro rfl
      simp [counterfactualRecord, sortedBy] at houtcome
    obtain ⟨k, hk, rfl, hless⟩ := hfound.least hne
    obtain ⟨removed, others, hsets, -, hremoved, halternatives⟩ :=
      counterfactualRecord_spec generic limit (map_fst_winners k) hne
    obtain ⟨facts, hitems, hsmallest⟩ := smallestWinner_of_winningSets hbase hk hsets hless
    exact ⟨facts, hremoved.trans hitems.symm, halternatives ▸ hsmallest⟩
  · -- The generic evaluation is the rerun without all active private facts.
    intro hfew hne
    refine hchanged.mpr ⟨factSet input _ (List.Sublist.refl _), ⟨fun _ h => h, hfew⟩, ?_⟩
    rw [genericInput_eq] at hgeneric
    exact ⟨_, evaluateDecisionGraphOnce_relabel hgeneric, hne⟩

/-- The one private fact of the sample decides its winner. -/
theorem searchPrivateFactCounterfactuals_minimal_sample :
    ∃ base generic record,
      evaluateDecisionGraphOnce .ascii Sample.input "base" Sample.now = .ok base ∧
      evaluateDecisionGraphOnce .ascii Sample.input.genericInput "generic_evaluation_id" Sample.now =
        .ok generic ∧
      searchPrivateFactCounterfactuals .ascii Sample.input base generic 3 = .ok record ∧
      record.outcome = .winnerChanged := by
  have hrun : ∀ removed ∈ [[], ["team_size"]], (evaluateDecisionGraphOnce .ascii
      (Sample.input.removing removed) "base" Sample.now).isOk = true := by decide +kernel
  have hchange :
      (evaluateDecisionGraphOnce .ascii Sample.input.genericInput "generic_evaluation_id"
        Sample.now).toOption.map (·.selectedPlanId) ≠
      (evaluateDecisionGraphOnce .ascii Sample.input "base" Sample.now).toOption.map
        (·.selectedPlanId) := by decide +kernel
  have hactive : activePrivateIds Sample.input = ["team_size"] := by decide +kernel
  obtain ⟨base, hbase⟩ := exists_of_isOk (hrun [] (by simp))
  obtain ⟨alternate, halternate⟩ := exists_of_isOk (hrun ["team_size"] (by simp))
  rw [removing_nil] at hbase
  have hgeneric := halternate
  rw [← hactive, ← genericInput_eq] at hgeneric
  have hreruns : ∀ facts, Removable Sample.input 3 facts →
      ∃ alternate, evaluateDecisionGraphOnce .ascii (Sample.input.removing facts.items)
        "counterfactual_evaluation_id" base.generatedAt = .ok alternate := by
    intro facts hfacts
    have hsub := hfacts.sublist
    rw [hactive, List.sublist_singleton] at hsub
    rcases hsub with hnone | hone
    · rw [hnone, removing_nil]
      exact ⟨_, evaluateDecisionGraphOnce_relabel hbase⟩
    · rw [hone]
      exact ⟨_, evaluateDecisionGraphOnce_relabel halternate⟩
  obtain ⟨record, hrecord, -, -, hdiffers⟩ := searchPrivateFactCounterfactuals_minimal
    (by decide) hbase (evaluateDecisionGraphOnce_relabel hgeneric) hreruns
  refine ⟨base, _, record, hbase, evaluateDecisionGraphOnce_relabel hgeneric, hrecord, ?_⟩
  refine hdiffers (by simp [hactive]) ?_
  rw [evaluateDecisionGraphOnce_relabel hgeneric, hbase] at hchange
  simpa [Except.toOption] using hchange

end DecisionEngine
