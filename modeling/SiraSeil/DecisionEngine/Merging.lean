-- SUMMARY: How recall merges: what it decides about a record, the groups of one key, their merged facts and their representative.
import SiraSeil.DecisionEngine.Identities
import Mathlib.Data.List.Perm.Basic

/-!
# Merging

Recall decides about every candidate once and merges the records it keeps by
their identity. One spec lemma for each step says what the step keeps of its
records.
-/

namespace DecisionEngine

open Domain Sorting Raising

variable {rt : Runtime} {input : DecisionGraphInput}

/-! ## Stages of a recall -/

/-- The record is not excluded. -/
def NotExcluded (rt : Runtime) (input : DecisionGraphInput) (record : RawCandidateRecord) : Prop :=
  recallExclusion rt record input (aliasMap input) = .ok none

/-- What recall decides about one record. -/
inductive RecallsAs (rt : Runtime) (input : DecisionGraphInput) (record : RawCandidateRecord) :
    Recalled → Prop
  | excluded {exclusion : RecallExclusion} (id : exclusion.recordId = record.recordId) :
      RecallsAs rt input record (.excluded exclusion)
  | kept {key : IdentityKey} (included : NotExcluded rt input record)
      (key_eq : identityKey rt record (aliasMap input) = .ok key) :
      RecallsAs rt input record (.kept key record)

theorem recallExclusion_recordId {record : RawCandidateRecord} {aliases : Dict String String}
    {exclusion : RecallExclusion}
    (h : recallExclusion rt record input aliases = .ok (some exclusion)) :
    exclusion.recordId = record.recordId := by
  unfold recallExclusion at h
  simp only [pure, Except.pure] at h
  split at h
  · cases h
    rfl
  · split at h
    · cases h
      rfl
    · split at h
      · cases h
      · split at h
        · cases h
          rfl
        · split at h
          · cases h
            rfl
          · obtain ⟨region, -, h⟩ := bind_eq_ok.mp h
            obtain ⟨regions, -, h⟩ := bind_eq_ok.mp h
            split at h
            · cases h
              rfl
            · cases h

theorem recallsAs_of_recallRecord {record : RawCandidateRecord} {outcome : Recalled}
    (h : recallRecord rt input record = .ok outcome) : RecallsAs rt input record outcome := by
  unfold recallRecord at h
  obtain ⟨exclusion, hexclusion, h⟩ := bind_eq_ok.mp h
  cases exclusion with
  | some exclusion =>
    cases pure_eq_ok.mp h
    exact .excluded (recallExclusion_recordId hexclusion)
  | none =>
    obtain ⟨key, hkey, h⟩ := bind_eq_ok.mp h
    cases pure_eq_ok.mp h
    exact .kept hexclusion hkey

theorem recallAndDeduplicate_eq_ok {recallResult : RecallResult} :
    recallAndDeduplicate rt input = .ok recallResult ↔
      ∃ recalled, (sortedBy (·.recordId) input.candidates).mapM (recallRecord rt input) =
          .ok recalled ∧
        ∃ groups, mergeGroups rt input (recalled.filterMap Recalled.kept?) = .ok groups ∧
          { identities := groups.map (·.identity)
            merges := sortedBy (fun m => toLex (m.canonicalId, m.mergedRecordId))
              (groups.flatMap (·.merges))
            representatives := sortedBy (·.recordId) (groups.map (·.representative))
            exclusions := sortedBy (·.recordId) (recalled.filterMap Recalled.exclusion?)
            rawRecordCount := input.candidates.length } = recallResult := by
  simp only [recallAndDeduplicate, bind_eq_ok, pure_eq_ok]

section Recalled

variable {recalled : List Recalled}
  (hrecalled : (sortedBy (·.recordId) input.candidates).mapM (recallRecord rt input) = .ok recalled)
include hrecalled

theorem mem_kept {key : IdentityKey} {record : RawCandidateRecord} :
    (key, record) ∈ recalled.filterMap Recalled.kept? ↔
      record ∈ input.candidates ∧ NotExcluded rt input record ∧
        identityKey rt record (aliasMap input) = .ok key := by
  rw [List.mem_filterMap]
  constructor
  · rintro ⟨outcome, houtcome, hkept⟩
    obtain ⟨candidate, hcandidate, hrun⟩ := (mem_of_mapM_eq_ok hrecalled).mp houtcome
    have hrecalls := recallsAs_of_recallRecord hrun
    cases hrecalls with
    | excluded hid => cases hkept
    | kept hincluded hkey =>
      cases hkept
      exact ⟨mem_sortedBy.mp hcandidate, hincluded, hkey⟩
  · rintro ⟨hcandidate, hincluded, hkey⟩
    obtain ⟨outcome, houtcome, hrun⟩ :=
      exists_of_mapM_eq_ok hrecalled (mem_sortedBy.mpr hcandidate)
    refine ⟨outcome, houtcome, ?_⟩
    unfold recallRecord at hrun
    dsimp only at hrun
    rw [hincluded, ok_bind] at hrun
    dsimp only at hrun
    rw [hkey, ok_bind] at hrun
    cases hrun
    rfl

theorem recalled_ids_perm :
    ((recalled.filterMap Recalled.exclusion?).map (·.recordId) ++
      (recalled.filterMap Recalled.kept?).map (·.2.recordId)).Perm
        (input.candidates.map (·.recordId)) := by
  have hsorted := (sortedBy_perm (fun r : RawCandidateRecord => r.recordId) input.candidates).map
    (fun r => r.recordId)
  refine List.Perm.trans ?_ hsorted
  have hall := mapM_eq_ok.mp hrecalled
  clear hrecalled hsorted
  generalize sortedBy (fun r : RawCandidateRecord => r.recordId) input.candidates = candidates
    at hall
  induction hall with
  | nil => exact .refl _
  | @cons candidate outcome candidates recalled hrun _ ih =>
    have hrecalls := recallsAs_of_recallRecord hrun
    cases hrecalls with
    | excluded hid =>
      simp only [List.filterMap_cons, Recalled.exclusion?, Recalled.kept?, List.map_cons,
        List.cons_append, hid]
      exact ih.cons _
    | kept hincluded hkey =>
      simp only [List.filterMap_cons, Recalled.exclusion?, Recalled.kept?, List.map_cons]
      exact List.perm_middle.trans (ih.cons _)

end Recalled

/-! ## Groups -/

/-- The merged group stands for the records kept under one key. -/
structure MergesKey (rt : Runtime) (input : DecisionGraphInput)
    (kept : List (IdentityKey × RawCandidateRecord)) (key : IdentityKey) (merged : MergedGroup) :
    Prop where
  run : ∃ first rest, groupOf kept key = first :: rest ∧
    mergeGroup rt (aliasMap input) key first rest = .ok merged

theorem mem_groupOf {kept : List (IdentityKey × RawCandidateRecord)} {key : IdentityKey}
    {record : RawCandidateRecord} : record ∈ groupOf kept key ↔ (key, record) ∈ kept := by
  unfold groupOf
  rw [mem_sortedBy, List.mem_map]
  constructor
  · rintro ⟨⟨key', record'⟩, hmem, rfl⟩
    obtain ⟨hkept, hkey⟩ := List.mem_filter.mp hmem
    rw [← of_decide_eq_true hkey]
    exact hkept
  · intro hmem
    exact ⟨(key, record), List.mem_filter.mpr ⟨hmem, decide_eq_true rfl⟩, rfl⟩

theorem groupOf_perm (kept : List (IdentityKey × RawCandidateRecord)) :
    ((sortedSet (kept.map Prod.fst)).flatMap (groupOf kept)).Perm (kept.map Prod.snd) := by
  have hgroups : ((sortedSet (kept.map Prod.fst)).flatMap
      (fun key => kept.filter (fun p => p.1 = key))).Perm kept :=
    flatMap_filter_perm (sortedSet_nodup (kept.map Prod.fst))
      (fun p hp => mem_sortedSet.mpr (List.mem_map_of_mem hp))
  refine List.Perm.trans ?_ (hgroups.map Prod.snd)
  rw [List.map_flatMap]
  exact List.Perm.flatMap_left _ (fun key _ => sortedBy_perm _ _)

section Groups

variable {kept : List (IdentityKey × RawCandidateRecord)} {groups : List MergedGroup}
  (hgroups : mergeGroups rt input kept = .ok groups)
include hgroups

/-- A key of the kept records is merged into one of the groups, and every group comes
    from such a key. -/
theorem mergesKey_of_mergeGroups :
    (∀ key ∈ kept.map Prod.fst, ∃ merged ∈ groups, MergesKey rt input kept key merged) ∧
      ∀ merged ∈ groups, ∃ key ∈ kept.map Prod.fst, MergesKey rt input kept key merged := by
  constructor
  · intro key hkey
    obtain ⟨merged, hmerged, hrun⟩ :=
      exists_of_mapM_eq_ok hgroups (mem_sortedSet.mpr hkey)
    split at hrun
    · rename_i first rest hgroup
      exact ⟨merged, hmerged, first, rest, hgroup, hrun⟩
    · cases hrun
  · intro merged hmerged
    obtain ⟨key, hkey, hrun⟩ := (mem_of_mapM_eq_ok hgroups).mp hmerged
    split at hrun
    · rename_i first rest hgroup
      exact ⟨key, mem_sortedSet.mp hkey, first, rest, hgroup, hrun⟩
    · cases hrun

theorem map_groups {γ : Type} {view : MergedGroup → γ} {own : List RawCandidateRecord → γ}
    (hview : ∀ key merged, MergesKey rt input kept key merged → view merged = own (groupOf kept key)) :
    groups.map view = (sortedSet (kept.map Prod.fst)).map (fun key => own (groupOf kept key)) := by
  refine map_eq_of_mapM_eq_ok hgroups (fun key _ merged hrun => ?_)
  refine hview key merged ?_
  split at hrun
  · rename_i first rest hgroup
    exact ⟨first, rest, hgroup, hrun⟩
  · cases hrun

end Groups

/-! ## Merged facts -/

/-- The hash a fact value is merged by. -/
def valueHash (rt : Runtime) (value : FactValue) : Py String :=
  contentHash rt value.toValue

/-- What merging keeps of the facts of some records: equal values of a field, as far
    as their hashes tell, become one fact with all their evidence. -/
structure MergedFacts (rt : Runtime) (own merged : List ProductFact) (componentId : String) :
    Prop where
  hashed : ∀ fact ∈ own, ∃ hash, valueHash rt fact.value = .ok hash
  source : ∀ fact ∈ merged, ∃ part ∈ own, part.field = fact.field ∧ part.value = fact.value
  covers : ∀ part ∈ own, ∃ fact ∈ merged, fact.field = part.field ∧
    valueHash rt fact.value = valueHash rt part.value
  evidence : ∀ fact ∈ merged, ∀ id, id ∈ fact.evidenceIds.items ↔
    ∃ part ∈ own, part.field = fact.field ∧ valueHash rt part.value = valueHash rt fact.value ∧
      id ∈ part.evidenceIds.items
  distinct : merged.Pairwise (fun fact fact' => fact.field = fact'.field →
    valueHash rt fact.value ≠ valueHash rt fact'.value)
  component : ∀ fact ∈ merged, fact.componentId = some componentId

theorem hashFact_eq_ok {fact : ProductFact} {hashed : HashedFact}
    (h : hashFact rt fact = .ok hashed) :
    hashed.fact = fact ∧ valueHash rt fact.value = .ok (ofLex hashed.key).2 ∧
      (ofLex hashed.key).1 = fact.field := by
  unfold hashFact at h
  obtain ⟨hash, hhash, h⟩ := bind_eq_ok.mp h
  obtain rfl := pure_eq_ok.mp h
  exact ⟨rfl, hhash, rfl⟩

/-- The fact that merging makes of the hashed facts of one key. -/
def mergedFact (hashed : List HashedFact) (componentId : String) (key : String ×ₗ String) :
    Py ProductFact := do
  let value ← getItem (Dict.ofList (hashed.map (fun h => (h.key, h.fact.value)))) key (ofLex key).1
  ProductFact.new
    { field := (ofLex key).1, value := value,
      evidenceIds :=
        .of ((hashed.filter (fun h => h.key = key)).flatMap (·.fact.evidenceIds.items)),
      componentId := some componentId }

theorem mergeFacts_eq (records : List RawCandidateRecord) (componentId : String) :
    mergeFacts rt records componentId = (do
      let hashed ← (records.flatMap (·.facts)).mapM (hashFact rt)
      (sortedSet (hashed.map (·.key))).mapM (mergedFact hashed componentId)) :=
  rfl

theorem mergedFact_eq_ok {hashed : List HashedFact} {key : String ×ₗ String} {componentId : String}
    {fact : ProductFact} (h : mergedFact hashed componentId key = .ok fact) :
    (∃ part ∈ hashed, part.key = key ∧ part.fact.value = fact.value) ∧
      fact.field = (ofLex key).1 ∧ fact.componentId = some componentId ∧
      ∀ id, id ∈ fact.evidenceIds.items ↔
        ∃ part ∈ hashed, part.key = key ∧ id ∈ part.fact.evidenceIds.items := by
  obtain ⟨value, hvalue, hnew⟩ := bind_eq_ok.mp h
  have hdata := ProductFact.new_eq_ok hnew
  refine ⟨?_, congrArg ProductFactData.field hdata, congrArg ProductFactData.componentId hdata, ?_⟩
  · unfold getItem at hvalue
    split at hvalue
    · rename_i written hwritten
      cases hvalue
      obtain ⟨part, hpart, heq⟩ := List.mem_map.mp (Dict.mem_of_get?_ofList hwritten)
      obtain ⟨hkey, hsame⟩ := Prod.mk.inj heq
      refine ⟨part, hpart, hkey, hsame.trans ?_⟩
      exact (congrArg ProductFactData.value hdata).symm
    · cases hvalue
  · intro id
    rw [congrArg ProductFactData.evidenceIds hdata, SortedTuple.mem_items_of, List.mem_flatMap]
    simp only [List.mem_filter, decide_eq_true_eq, and_assoc]

theorem mergedFacts_of_mergeFacts {records : List RawCandidateRecord} {componentId : String}
    {facts : List ProductFact} (h : mergeFacts rt records componentId = .ok facts) :
    MergedFacts rt (records.flatMap (·.facts)) facts componentId := by
  rw [mergeFacts_eq] at h
  obtain ⟨hashed, hhashed, h⟩ := bind_eq_ok.mp h
  -- The parts are the facts of the records, each under its field and value hash.
  have hpart : ∀ part ∈ hashed, part.fact ∈ records.flatMap (·.facts) ∧
      part.fact.field = (ofLex part.key).1 ∧
      valueHash rt part.fact.value = .ok (ofLex part.key).2 := by
    intro part hmem
    obtain ⟨own, hown, hrun⟩ := (mem_of_mapM_eq_ok hhashed).mp hmem
    obtain ⟨rfl, hhash, hfield⟩ := hashFact_eq_ok hrun
    exact ⟨hown, hfield.symm, hhash⟩
  have hown : ∀ own ∈ records.flatMap (·.facts), ∃ part ∈ hashed, part.fact = own := by
    intro own hmem
    obtain ⟨part, hin, hrun⟩ := exists_of_mapM_eq_ok hhashed hmem
    exact ⟨part, hin, (hashFact_eq_ok hrun).1⟩
  have hkeyed : ∀ key fact, mergedFact hashed componentId key = .ok fact →
      fact.field = (ofLex key).1 ∧ valueHash rt fact.value = .ok (ofLex key).2 := by
    intro key fact hrun
    obtain ⟨⟨part, hin, hkey, hvalue⟩, hfield, -, -⟩ := mergedFact_eq_ok hrun
    refine ⟨hfield, ?_⟩
    rw [← hvalue, ← hkey]
    exact (hpart part hin).2.2
  have hsame : ∀ key fact part, mergedFact hashed componentId key = .ok fact → part ∈ hashed →
      (part.key = key ↔ part.fact.field = fact.field ∧
        valueHash rt part.fact.value = valueHash rt fact.value) := by
    intro key fact part hrun hin
    obtain ⟨hfield, hhash⟩ := hkeyed key fact hrun
    obtain ⟨-, hpartField, hpartHash⟩ := hpart part hin
    rw [hfield, hhash, hpartField, hpartHash, Except.ok.injEq]
    exact ⟨fun heq => heq ▸ ⟨rfl, rfl⟩, fun ⟨hl, hr⟩ => Prod.ext hl hr⟩
  constructor
  · intro fact hmem
    obtain ⟨part, hin, rfl⟩ := hown fact hmem
    exact ⟨_, (hpart part hin).2.2⟩
  · intro fact hmem
    obtain ⟨key, -, hrun⟩ := (mem_of_mapM_eq_ok h).mp hmem
    obtain ⟨⟨part, hin, hkey, hvalue⟩, hfield, -, -⟩ := mergedFact_eq_ok hrun
    exact ⟨part.fact, (hpart part hin).1, ((hsame key fact part hrun hin).mp hkey).1, hvalue⟩
  · intro own hmem
    obtain ⟨part, hin, rfl⟩ := hown own hmem
    obtain ⟨fact, hfact, hrun⟩ := exists_of_mapM_eq_ok h
      (mem_sortedSet.mpr (List.mem_map_of_mem hin))
    obtain ⟨hfield, hhash⟩ := (hsame part.key fact part hrun hin).mp rfl
    exact ⟨fact, hfact, hfield.symm, hhash.symm⟩
  · intro fact hmem id
    obtain ⟨key, -, hrun⟩ := (mem_of_mapM_eq_ok h).mp hmem
    obtain ⟨-, -, -, hevidence⟩ := mergedFact_eq_ok hrun
    rw [hevidence]
    constructor
    · rintro ⟨part, hin, hkey, hid⟩
      obtain ⟨hfield, hhash⟩ := (hsame key fact part hrun hin).mp hkey
      exact ⟨part.fact, (hpart part hin).1, hfield, hhash, hid⟩
    · rintro ⟨own, hmem, hfield, hhash, hid⟩
      obtain ⟨part, hin, rfl⟩ := hown own hmem
      exact ⟨part, hin, (hsame key fact part hrun hin).mpr ⟨hfield, hhash⟩, hid⟩
  · -- The keys are distinct, and a merged fact hashes to its own key.
    have hkeys : facts.map (fun fact => (fact.field, valueHash rt fact.value)) =
        (sortedSet (hashed.map (·.key))).map
          (fun key => ((ofLex key).1, Except.ok (ofLex key).2)) := by
      refine map_eq_of_mapM_eq_ok h (fun key _ fact hrun => ?_)
      obtain ⟨hfield, hhash⟩ := hkeyed key fact hrun
      rw [hfield, hhash]
    have hnodup : (facts.map (fun fact => (fact.field, valueHash rt fact.value))).Nodup := by
      rw [hkeys]
      refine (sortedSet_nodup _).map (fun key key' heq => ?_)
      obtain ⟨hfst, hsnd⟩ := Prod.mk.inj heq
      exact Prod.ext hfst (Except.ok.inj hsnd)
    refine (List.pairwise_map.mp hnodup).imp (fun hne hfield hhash => ?_)
    exact hne (by rw [hfield, hhash])
  · intro fact hmem
    obtain ⟨key, -, hrun⟩ := (mem_of_mapM_eq_ok h).mp hmem
    exact (mergedFact_eq_ok hrun).2.2.1

/-! ## Representatives -/

/-- The order in which the records of an identity are tried as its anchor. -/
def anchorKey (record : RawCandidateRecord) : ℤ ×ₗ String :=
  toLex (-(record.packVersion : ℤ), record.recordId)

/-- What a representative keeps of the records of its identity. -/
structure StandsFor (rt : Runtime) (aliases : Dict String String) (key : IdentityKey)
    (group : List RawCandidateRecord) (root : RawCandidateRecord) : Prop where
  sellerId : root.sellerId = key.seller
  productId : root.productId = key.product
  edition : root.edition = key.edition
  region : root.region = key.region
  offer : ∃ anchor ∈ group, (∀ r ∈ group, anchorKey anchor ≤ anchorKey r) ∧
    canonical rt anchor.offerId aliases = .ok root.offerId
  available : root.available = group.all (·.available)
  authority_mem : ∃ r ∈ group, root.authority = r.authority
  authority_weakest : ∀ r ∈ group, r.authority.rank ≤ root.authority.rank
  facts : MergedFacts rt (group.flatMap (·.facts)) root.facts key.product
  required : root.requiredProductIds = .of (group.flatMap (·.requiredProductIds.items))
  sellerGates : root.sellerGateIds = .of (group.flatMap (·.sellerGateIds.items))

theorem authorityFloor_spec (first : RawCandidateRecord) (rest : List RawCandidateRecord) :
    (∃ r ∈ first :: rest, authorityFloor first rest = r.authority) ∧
      ∀ r ∈ first :: rest, r.authority.rank ≤ (authorityFloor first rest).rank := by
  obtain ⟨hmem, hmax⟩ := firstMax_spec (fun r : RawCandidateRecord => r.authority.rank) first rest
  exact ⟨⟨_, hmem, rfl⟩, hmax⟩

theorem standsFor_of_representative {aliases : Dict String String} {key : IdentityKey}
    {id : String} {first : RawCandidateRecord} {rest : List RawCandidateRecord}
    {root : RawCandidateRecord} (h : representative rt aliases key id first rest = .ok root) :
    StandsFor rt aliases key (first :: rest) root := by
  unfold representative at h
  dsimp only at h
  obtain ⟨offerId, hoffer, h⟩ := bind_eq_ok.mp h
  obtain ⟨facts, hfacts, h⟩ := bind_eq_ok.mp h
  have hdata := RawCandidateRecord.new_eq_ok h
  obtain ⟨hmem, hmax⟩ := authorityFloor_spec first rest
  obtain ⟨hanchor, hleast⟩ := firstMin_spec anchorKey first rest
  constructor
  · exact congrArg RawCandidateData.sellerId hdata
  · exact congrArg RawCandidateData.productId hdata
  · exact congrArg RawCandidateData.edition hdata
  · exact congrArg RawCandidateData.region hdata
  · refine ⟨_, hanchor, hleast, ?_⟩
    rw [hdata]
    exact hoffer
  · exact congrArg RawCandidateData.available hdata
  · rw [hdata]
    exact hmem
  · rw [hdata]
    exact hmax
  · rw [hdata]
    exact mergedFacts_of_mergeFacts hfacts
  · exact congrArg RawCandidateData.requiredProductIds hdata
  · exact congrArg RawCandidateData.sellerGateIds hdata

theorem mergeGroup_eq_ok {aliases : Dict String String} {key : IdentityKey}
    {first : RawCandidateRecord} {rest : List RawCandidateRecord} {merged : MergedGroup}
    (h : mergeGroup rt aliases key first rest = .ok merged) :
    StandsFor rt aliases key (first :: rest) merged.representative ∧
      merged.identity.recordIds = (first :: rest).map (·.recordId) ∧
      merged.merges.length = rest.length := by
  unfold mergeGroup at h
  obtain ⟨id, -, h⟩ := bind_eq_ok.mp h
  obtain ⟨offerIds, -, h⟩ := bind_eq_ok.mp h
  obtain ⟨root, hroot, h⟩ := bind_eq_ok.mp h
  obtain rfl := pure_eq_ok.mp h
  exact ⟨standsFor_of_representative hroot, rfl, List.length_map _⟩

theorem MergesKey.spec {kept : List (IdentityKey × RawCandidateRecord)} {key : IdentityKey}
    {merged : MergedGroup} (h : MergesKey rt input kept key merged) :
    Represents merged.identity merged.representative ∧
      StandsFor rt (aliasMap input) key (groupOf kept key) merged.representative ∧
      merged.identity.recordIds = (groupOf kept key).map (·.recordId) ∧
      merged.merges.length + 1 = (groupOf kept key).length := by
  obtain ⟨first, rest, hgroup, hmerge⟩ := h.run
  obtain ⟨hstands, hids, hmerges⟩ := mergeGroup_eq_ok hmerge
  rw [hgroup, hmerges]
  exact ⟨(mergedFrom_of_mergeGroup hmerge).represents, hstands, hids, rfl⟩

end DecisionEngine
