-- SUMMARY: Recall partitions the candidates: every record is excluded or merged into one identity, and a representative is what its records say together.
import SiraSeil.DecisionEngine.Aliases
import SiraSeil.DecisionEngine.Merging
import SiraSeil.DecisionEngine.Readings
import SiraSeil.Domain.Hashing

/-!
# Partition

Recall reads every candidate once. This file says when it returns and what the
result is made of: which record went where, and what the representative of an
identity keeps of the records merged into it.
-/

namespace DecisionEngine

open Domain Sorting Raising

variable {rt : Runtime} {input : DecisionGraphInput}

/-! ## When recall returns -/

/-- No record of the same identity comes before this one as an anchor. -/
def IsAnchor (rt : Runtime) (input : DecisionGraphInput) (record : RawCandidateRecord) : Prop :=
  ∀ other ∈ input.candidates, NotExcluded rt input other →
    identityKey rt other (aliasMap input) = identityKey rt record (aliasMap input) →
      anchorKey record ≤ anchorKey other

/-- The records that recall does not exclude can be merged: their values can be
    hashed, and what names their identity and their offer is fit for a record. -/
structure Mergeable (rt : Runtime) (input : DecisionGraphInput) : Prop where
  values : ∀ r ∈ input.candidates, NotExcluded rt input r →
    ∀ fact ∈ r.facts, fact.value.toValue.Canonical
  names : ∀ r ∈ input.candidates, NotExcluded rt input r →
    ∀ key, identityKey rt r (aliasMap input) = .ok key →
      isId key.seller = true ∧ isId key.product = true ∧ key.edition ≠ "" ∧ key.region ≠ ""
  offers : ∀ r ∈ input.candidates, NotExcluded rt input r → IsAnchor rt input r →
    ∀ id, canonical rt r.offerId (aliasMap input) = .ok id → isId id = true

section Stages

variable {recalled : List Recalled} {groups : List MergedGroup}
  (hrecalled : (sortedBy (·.recordId) input.candidates).mapM (recallRecord rt input) = .ok recalled)
  (hgroups : mergeGroups rt input (recalled.filterMap Recalled.kept?) = .ok groups)
include hrecalled hgroups

theorem exists_merged {record : RawCandidateRecord} (hrecord : record ∈ input.candidates)
    (hincluded : NotExcluded rt input record) :
    ∃ key, identityKey rt record (aliasMap input) = .ok key ∧
      ∃ merged ∈ groups, MergesKey rt input (recalled.filterMap Recalled.kept?) key merged ∧
        record ∈ groupOf (recalled.filterMap Recalled.kept?) key := by
  obtain ⟨outcome, houtcome, hrun⟩ :=
    exists_of_mapM_eq_ok hrecalled (mem_sortedBy.mpr hrecord)
  unfold recallRecord at hrun
  dsimp only at hrun
  rw [hincluded, ok_bind] at hrun
  obtain ⟨key, hkey, -⟩ := bind_eq_ok.mp hrun
  have hkept := (mem_kept hrecalled).mpr ⟨hrecord, hincluded, hkey⟩
  obtain ⟨merged, hmerged, hmerges⟩ :=
    (mergesKey_of_mergeGroups hgroups).1 key (List.mem_map_of_mem hkept)
  exact ⟨key, hkey, merged, hmerged, hmerges, mem_groupOf.mpr hkept⟩

omit hgroups in
theorem mem_groupOf_kept {key : IdentityKey} {record : RawCandidateRecord} :
    record ∈ groupOf (recalled.filterMap Recalled.kept?) key ↔
      record ∈ input.candidates ∧ NotExcluded rt input record ∧
        identityKey rt record (aliasMap input) = .ok key :=
  mem_groupOf.trans (mem_kept hrecalled)

end Stages

theorem mergeable_of_recall {recallResult : RecallResult}
    (h : recallAndDeduplicate rt input = .ok recallResult) : Mergeable rt input := by
  obtain ⟨recalled, hrecalled, groups, hgroups, -⟩ := recallAndDeduplicate_eq_ok.mp h
  constructor
  · intro r hr hincluded fact hfact
    obtain ⟨key, -, merged, -, hmerges, hmem⟩ := exists_merged hrecalled hgroups hr hincluded
    obtain ⟨-, hstands, -, -⟩ := hmerges.spec
    exact exists_contentHash_eq_ok.mp
      (hstands.facts.hashed fact (List.mem_flatMap.mpr ⟨r, hmem, hfact⟩))
  · intro r hr hincluded key hkey
    obtain ⟨key', hkey', merged, -, hmerges, -⟩ := exists_merged hrecalled hgroups hr hincluded
    obtain rfl : key' = key := Except.ok.inj (hkey'.symm.trans hkey)
    obtain ⟨-, hstands, -, -⟩ := hmerges.spec
    obtain ⟨-, -, hseller, hproduct, -, ⟨-, hedition, hregion⟩, -⟩ :=
      RawCandidateData.postInit_eq_ok.mp merged.representative.admitted
    rw [← hstands.sellerId, ← hstands.productId, ← hstands.edition, ← hstands.region]
    exact ⟨hseller, hproduct, hedition, hregion⟩
  · intro r hr hincluded hanchor id hid
    obtain ⟨key, hkey, merged, -, hmerges, hmem⟩ := exists_merged hrecalled hgroups hr hincluded
    obtain ⟨-, hstands, -, -⟩ := hmerges.spec
    obtain ⟨anchor, hin, hleast, hoffer⟩ := hstands.offer
    obtain ⟨hcandidate, hnot, hsame⟩ := (mem_groupOf_kept hrecalled).mp hin
    -- Both records come first, so they are one record.
    have hboth : anchorKey anchor = anchorKey r :=
      le_antisymm (hleast r hmem) (hanchor anchor hcandidate hnot (hsame.trans hkey.symm))
    have hone : anchor = r := List.inj_on_of_nodup_map input.candidates_nodup hcandidate hr
      (congrArg (fun k => (ofLex k).2) hboth)
    rw [hone, hid] at hoffer
    rw [Except.ok.inj hoffer]
    exact (RawCandidateData.postInit_eq_ok.mp merged.representative.admitted).2.2.2.2.1

theorem exists_mergeFacts {records : List RawCandidateRecord} {componentId : String}
    (hvalues : ∀ r ∈ records, ∀ fact ∈ r.facts, fact.value.toValue.Canonical)
    (hid : isId componentId = true) : ∃ facts, mergeFacts rt records componentId = .ok facts := by
  rw [mergeFacts_eq]
  obtain ⟨hashed, hhashed⟩ := exists_mapM_eq_ok (f := hashFact rt)
    (l := records.flatMap (·.facts)) (fun fact hfact => by
      obtain ⟨r, hr, hmem⟩ := List.mem_flatMap.mp hfact
      obtain ⟨hash, hhash⟩ : ∃ hash, contentHash rt fact.value.toValue = .ok hash :=
        exists_contentHash_eq_ok.mpr (hvalues r hr fact hmem)
      unfold hashFact
      rw [hhash, ok_bind]
      exact ⟨_, rfl⟩)
  rw [hhashed, ok_bind]
  refine exists_mapM_eq_ok (fun key hkey => ?_)
  obtain ⟨part, hpart, rfl⟩ := List.mem_map.mp (mem_sortedSet.mp hkey)
  obtain ⟨own, hown, hrun⟩ := (mem_of_mapM_eq_ok hhashed).mp hpart
  obtain ⟨hfact, -, hfield⟩ := hashFact_eq_ok hrun
  unfold mergedFact getItem
  cases hvalue : (Dict.ofList (hashed.map (fun h => (h.key, h.fact.value)))).get? part.key with
  | none =>
    refine absurd ?_ (Dict.get?_eq_none_iff.mp hvalue)
    rw [Dict.mem_keys_ofList, List.map_map]
    exact List.mem_map_of_mem hpart
  | some value =>
    refine ProductFact.exists_new (ProductFactData.postInit_eq_ok.mpr ⟨?_, ?_, ?_⟩)
    · rw [hfield]
      exact (ProductFactData.postInit_eq_ok.mp own.admitted).1
    · intro id hmem
      obtain ⟨other, hother, hin⟩ := List.mem_flatMap.mp (SortedTuple.mem_items_of.mp hmem)
      exact (ProductFactData.postInit_eq_ok.mp other.fact.admitted).2.1 id hin
    · intro id hsome
      rw [← Option.some.inj hsome]
      exact hid

variable {aliases : Dict String String} {key : IdentityKey}

/-- A group is merged when its values can be hashed and its names are fit for a record. -/
theorem exists_mergeGroup (hhex : HexDigests rt) (hacyclic : Acyclic aliases)
    {first : RawCandidateRecord} {rest : List RawCandidateRecord}
    (hvalues : ∀ r ∈ first :: rest, ∀ fact ∈ r.facts, fact.value.toValue.Canonical)
    (hnames : isId key.seller = true ∧ isId key.product = true ∧ key.edition ≠ "" ∧
      key.region ≠ "")
    (hoffer : ∀ anchor ∈ first :: rest, (∀ r ∈ first :: rest, anchorKey anchor ≤ anchorKey r) →
      ∀ id, canonical rt anchor.offerId aliases = .ok id → isId id = true) :
    ∃ merged, mergeGroup rt aliases key first rest = .ok merged := by
  obtain ⟨hseller, hproduct, hedition, hregion⟩ := hnames
  have hcanonical : (Value.strs [key.seller, key.product, key.edition, key.region]).Canonical := by
    simp
  obtain ⟨hash, hhash⟩ : ∃ hash, contentHash rt
      (.strs [key.seller, key.product, key.edition, key.region]) = .ok hash :=
    exists_contentHash_eq_ok.mpr hcanonical
  obtain ⟨offerIds, hofferIds⟩ := exists_mapM_eq_ok
    (f := fun r : RawCandidateRecord => canonical rt r.offerId aliases) (l := first :: rest)
    (fun r _ => exists_canonical hacyclic rt r.offerId)
  obtain ⟨hanchor, hleast⟩ := firstMin_spec anchorKey first rest
  obtain ⟨offerId, hofferId⟩ :=
    exists_canonical hacyclic rt (firstMin anchorKey first rest).offerId
  obtain ⟨facts, hfacts⟩ := exists_mergeFacts hvalues hproduct
  obtain ⟨-, hpack, -, -, -, ⟨hversion, -, -⟩, -⟩ :=
    RawCandidateData.postInit_eq_ok.mp (firstMin anchorKey first rest).admitted
  have hids : ∀ r ∈ first :: rest,
      ∀ id ∈ r.categoryIds.items ++ r.jtbdIds.items ++ r.requiredProductIds.items,
        isId id = true :=
    fun r _ => (RawCandidateData.postInit_eq_ok.mp r.admitted).2.2.2.2.2.2
  have hid : canonicalId rt key = .ok ("canonical_" ++ digest20 hash) := by
    unfold canonicalId
    rw [hhash]
    rfl
  obtain ⟨root, hroot⟩ : ∃ root, representative rt aliases key ("canonical_" ++ digest20 hash)
      first rest = .ok root := by
    unfold representative
    dsimp only
    rw [show (fun r : RawCandidateRecord => toLex (-(r.packVersion : ℤ), r.recordId)) = anchorKey
      from rfl, hofferId, ok_bind, hfacts, ok_bind]
    refine RawCandidateRecord.exists_new (RawCandidateData.postInit_eq_ok.mpr
      ⟨?_, hpack, hseller, hproduct, ?_, ⟨hversion, hedition, hregion⟩, ?_⟩)
    · exact isId_append_digest hhex hhash (by decide) (by decide)
    · exact hoffer _ hanchor hleast offerId hofferId
    · intro id hmem
      simp only [List.mem_append, SortedTuple.mem_items_of, List.mem_flatMap] at hmem
      rcases hmem with (⟨r, hr, hin⟩ | ⟨r, hr, hin⟩) | ⟨r, hr, hin⟩
      · exact hids r hr id (List.mem_append_left _ (List.mem_append_left _ hin))
      · exact hids r hr id (List.mem_append_left _ (List.mem_append_right _ hin))
      · exact hids r hr id (List.mem_append_right _ hin)
  unfold mergeGroup
  rw [hid, ok_bind, hofferIds, ok_bind, hroot, ok_bind]
  exact ⟨_, rfl⟩

theorem exists_identityKey (rt : Runtime) (hacyclic : Acyclic (aliasMap input)) (record : RawCandidateRecord) :
    ∃ key, identityKey rt record (aliasMap input) = .ok key := by
  obtain ⟨seller, hseller⟩ := exists_canonical hacyclic rt record.sellerId
  obtain ⟨product, hproduct⟩ := exists_canonical hacyclic rt record.productId
  obtain ⟨edition, hedition⟩ := exists_canonical hacyclic rt record.edition
  obtain ⟨region, hregion⟩ := exists_canonical hacyclic rt record.region
  unfold identityKey
  rw [hseller, ok_bind, hproduct, ok_bind, hedition, ok_bind, hregion,
    ok_bind]
  exact ⟨_, rfl⟩

theorem exists_recallExclusion (rt : Runtime) (hacyclic : Acyclic (aliasMap input))
    (record : RawCandidateRecord) :
    ∃ exclusion, recallExclusion rt record input (aliasMap input) = .ok exclusion := by
  unfold recallExclusion
  simp only [pure, Except.pure]
  split
  · exact ⟨_, rfl⟩
  · split
    · exact ⟨_, rfl⟩
    · split
      · exact ⟨_, rfl⟩
      · rename_i policy _
        split
        · exact ⟨_, rfl⟩
        · split
          · exact ⟨_, rfl⟩
          · obtain ⟨region, hregion⟩ := exists_canonical hacyclic rt record.region
            obtain ⟨regions, hregions⟩ := exists_mapM_eq_ok
              (f := fun v => canonical rt v (aliasMap input)) (l := policy.allowedRegions.items)
              (fun v _ => exists_canonical hacyclic rt v)
            rw [hregion, ok_bind, hregions, ok_bind]
            split
            · exact ⟨_, rfl⟩
            · exact ⟨_, rfl⟩

theorem exists_recall_of_mergeable (hhex : HexDigests rt) (hacyclic : Acyclic (aliasMap input))
    (h : Mergeable rt input) :
    ∃ recallResult, recallAndDeduplicate rt input = .ok recallResult := by
  obtain ⟨recalled, hrecalled⟩ := exists_mapM_eq_ok (f := recallRecord rt input)
    (l := sortedBy (·.recordId) input.candidates) (fun record _ => by
      obtain ⟨exclusion, hexclusion⟩ := exists_recallExclusion rt hacyclic record
      obtain ⟨key, hkey⟩ := exists_identityKey rt hacyclic record
      unfold recallRecord
      dsimp only
      rw [hexclusion, ok_bind]
      cases exclusion with
      | some exclusion => exact ⟨_, rfl⟩
      | none =>
        dsimp only
        rw [hkey, ok_bind]
        exact ⟨_, rfl⟩)
  obtain ⟨groups, hgroups⟩ :
      ∃ groups, mergeGroups rt input (recalled.filterMap Recalled.kept?) = .ok groups := by
    refine exists_mapM_eq_ok (fun key hkey => ?_)
    obtain ⟨⟨key, record⟩, hkept, rfl⟩ := List.mem_map.mp (mem_sortedSet.mp hkey)
    have hrecord := mem_groupOf.mpr hkept
    split
    · rename_i first rest hgroup
      have hgroupMem : ∀ r, r ∈ first :: rest ↔ r ∈ input.candidates ∧ NotExcluded rt input r ∧
          identityKey rt r (aliasMap input) = .ok key := by
        intro r
        rw [← hgroup]
        exact mem_groupOf_kept hrecalled
      refine exists_mergeGroup hhex hacyclic ?_ ?_ ?_
      · intro r hr
        obtain ⟨hcandidate, hincluded, -⟩ := (hgroupMem r).mp hr
        exact h.values r hcandidate hincluded
      · obtain ⟨hcandidate, hincluded, hkey⟩ := (mem_kept hrecalled).mp hkept
        exact h.names record hcandidate hincluded key hkey
      · intro anchor hanchor hleast
        obtain ⟨hcandidate, hincluded, hown⟩ := (hgroupMem anchor).mp hanchor
        refine h.offers anchor hcandidate hincluded (fun other hother hnot hsame => ?_)
        exact hleast other ((hgroupMem other).mpr ⟨hother, hnot, hsame.trans hown⟩)
    · rename_i hempty
      rw [hempty] at hrecord
      cases hrecord
  exact ⟨_, recallAndDeduplicate_eq_ok.mpr ⟨recalled, hrecalled, groups, hgroups, rfl⟩⟩

/-! ## The partition -/

/-- The input with other candidates. -/
def DecisionGraphInput.withCandidates (input : DecisionGraphInput)
    (candidates : List RawCandidateRecord) (h : (candidates.map (·.recordId)).Nodup) :
    DecisionGraphInput :=
  { input with candidates := candidates, candidates_nodup := h }

/-- The candidates that an identity lists. -/
def recordsOf (input : DecisionGraphInput) (identity : IdentityRecord) : List RawCandidateRecord :=
  input.candidates.filter (fun r => r.recordId ∈ identity.recordIds)

/-- The facts are the fields and values of the records, each once, with the evidence
    of all the records that state it. -/
structure UnionOf (records : List RawCandidateRecord) (facts : List ProductFact) : Prop where
  pairs : ∀ field value, (∃ fact ∈ facts, fact.field = field ∧ fact.value = value) ↔
    ∃ r ∈ records, ∃ part ∈ r.facts, part.field = field ∧ part.value = value
  distinct : (facts.map (fun fact => (fact.field, fact.value))).Nodup
  evidence : ∀ fact ∈ facts, ∀ id, id ∈ fact.evidenceIds.items ↔
    ∃ r ∈ records, ∃ part ∈ r.facts,
      part.field = fact.field ∧ part.value = fact.value ∧ id ∈ part.evidenceIds.items

/-- The representative says what its records say together. -/
structure Summarizes (records : List RawCandidateRecord) (root : RawCandidateRecord) : Prop where
  available : root.available = true → ∀ r ∈ records, r.available = true
  authority : ∃ r ∈ records, root.authority = r.authority
  weakest : ∀ r ∈ records, r.authority.rank ≤ root.authority.rank
  facts : UnionOf records root.facts

/-- Seller, product, edition and region have equal canonical forms. -/
structure SameCanonical (rt : Runtime) (aliases : Dict String String)
    (r s : RawCandidateRecord) : Prop where
  seller : canonical rt r.sellerId aliases = canonical rt s.sellerId aliases
  product : canonical rt r.productId aliases = canonical rt s.productId aliases
  edition : canonical rt r.edition aliases = canonical rt s.edition aliases
  region : canonical rt r.region aliases = canonical rt s.region aliases

/-- The record ids that a recall accounts for. -/
def accountedIds (recallResult : RecallResult) : List String :=
  recallResult.exclusions.map (·.recordId) ++ recallResult.identities.flatMap (·.recordIds)

/-- A recall partitions the candidates of its input. -/
structure Partitioned (rt : Runtime) (input : DecisionGraphInput) (recallResult : RecallResult) :
    Prop where
  once : ∀ r ∈ input.candidates, (accountedIds recallResult).count r.recordId = 1
  only : ∀ id ∈ accountedIds recallResult, ∃ r ∈ input.candidates, r.recordId = id
  count : recallResult.rawRecordCount =
    recallResult.identities.length + recallResult.merges.length + recallResult.exclusions.length
  shared : ∀ r ∈ input.candidates, ∀ s ∈ input.candidates,
    r.recordId ∉ recallResult.exclusions.map (·.recordId) →
    s.recordId ∉ recallResult.exclusions.map (·.recordId) →
    ((∃ identity ∈ recallResult.identities,
        r.recordId ∈ identity.recordIds ∧ s.recordId ∈ identity.recordIds) ↔
      SameCanonical rt (aliasMap input) r s)
  represented : ∀ identity ∈ recallResult.identities, ∃ root ∈ recallResult.representatives,
    Represents identity root ∧ Summarizes (recordsOf input identity) root
  representative : ∀ root ∈ recallResult.representatives, ∃ identity ∈ recallResult.identities,
    Represents identity root ∧ Summarizes (recordsOf input identity) root
  order : ∀ candidates (h : (candidates.map (·.recordId)).Nodup),
    candidates.Perm input.candidates →
      recallAndDeduplicate rt (input.withCandidates candidates h) = .ok recallResult

/-- The digests of the candidates' fact values tell the values apart. -/
def DistinctValueHashes (rt : Runtime) (input : DecisionGraphInput) : Prop :=
  ∀ r ∈ input.candidates, ∀ s ∈ input.candidates, ∀ fact ∈ r.facts, ∀ fact' ∈ s.facts,
    rt.hexdigest fact.value.toValue = rt.hexdigest fact'.value.toValue → fact.value = fact'.value

theorem hexdigest_of_valueHash {value value' : FactValue} {hash : String}
    (h : valueHash rt value = .ok hash) (h' : valueHash rt value' = .ok hash) :
    rt.hexdigest value.toValue = rt.hexdigest value'.toValue := by
  obtain ⟨-, rfl⟩ := contentHash_eq_ok.mp h
  obtain ⟨-, heq⟩ := contentHash_eq_ok.mp h'
  exact String.append_right_inj _ |>.mp heq

theorem MergedFacts.unionOf {records : List RawCandidateRecord} {facts : List ProductFact}
    {componentId : String} (h : MergedFacts rt (records.flatMap (·.facts)) facts componentId)
    (hrecords : records ⊆ input.candidates) (hdistinct : DistinctValueHashes rt input) :
    UnionOf records facts := by
  -- Values with one hash are one value, whether they are merged or not.
  have hown : ∀ part ∈ records.flatMap (·.facts), ∀ part' ∈ records.flatMap (·.facts),
      valueHash rt part.value = valueHash rt part'.value → part.value = part'.value := by
    intro part hpart part' hpart' heq
    obtain ⟨hash, hhash⟩ := h.hashed part hpart
    obtain ⟨r, hr, hmem⟩ := List.mem_flatMap.mp hpart
    obtain ⟨s, hs, hmem'⟩ := List.mem_flatMap.mp hpart'
    exact hdistinct r (hrecords hr) s (hrecords hs) part hmem part' hmem'
      (hexdigest_of_valueHash hhash (heq ▸ hhash))
  have hsame : ∀ fact ∈ facts, ∀ part ∈ records.flatMap (·.facts),
      valueHash rt part.value = valueHash rt fact.value → part.value = fact.value := by
    intro fact hfact part hpart heq
    obtain ⟨source, hsource, -, hvalue⟩ := h.source fact hfact
    rw [← hvalue] at heq ⊢
    exact hown part hpart source hsource heq
  constructor
  · intro field value
    constructor
    · rintro ⟨fact, hfact, rfl, rfl⟩
      obtain ⟨part, hpart, hfield, hvalue⟩ := h.source fact hfact
      obtain ⟨r, hr, hmem⟩ := List.mem_flatMap.mp hpart
      exact ⟨r, hr, part, hmem, hfield, hvalue⟩
    · rintro ⟨r, hr, part, hmem, rfl, rfl⟩
      have hpart : part ∈ records.flatMap (·.facts) := List.mem_flatMap.mpr ⟨r, hr, hmem⟩
      obtain ⟨fact, hfact, hfield, hhash⟩ := h.covers part hpart
      exact ⟨fact, hfact, hfield, (hsame fact hfact part hpart hhash.symm).symm⟩
  · refine List.pairwise_map.mpr (h.distinct.imp (fun hne heq => ?_))
    obtain ⟨hfield, hvalue⟩ := Prod.mk.inj heq
    exact hne hfield (congrArg (valueHash rt) hvalue)
  · intro fact hfact id
    rw [h.evidence fact hfact id]
    constructor
    · rintro ⟨part, hpart, hfield, hhash, hid⟩
      obtain ⟨r, hr, hmem⟩ := List.mem_flatMap.mp hpart
      exact ⟨r, hr, part, hmem, hfield, hsame fact hfact part hpart hhash, hid⟩
    · rintro ⟨r, hr, part, hmem, hfield, hvalue, hid⟩
      exact ⟨part, List.mem_flatMap.mpr ⟨r, hr, hmem⟩, hfield, congrArg (valueHash rt) hvalue, hid⟩

theorem identityKey_eq_ok {record : RawCandidateRecord}
    (h : identityKey rt record aliases = .ok key) :
    canonical rt record.sellerId aliases = .ok key.seller ∧
      canonical rt record.productId aliases = .ok key.product ∧
      canonical rt record.edition aliases = .ok key.edition ∧
      canonical rt record.region aliases = .ok key.region := by
  unfold identityKey at h
  obtain ⟨seller, hseller, h⟩ := bind_eq_ok.mp h
  obtain ⟨product, hproduct, h⟩ := bind_eq_ok.mp h
  obtain ⟨edition, hedition, h⟩ := bind_eq_ok.mp h
  obtain ⟨region, hregion, h⟩ := bind_eq_ok.mp h
  obtain rfl := pure_eq_ok.mp h
  exact ⟨hseller, hproduct, hedition, hregion⟩

theorem sameCanonical_iff {r s : RawCandidateRecord} {key' : IdentityKey}
    (hr : identityKey rt r aliases = .ok key) (hs : identityKey rt s aliases = .ok key') :
    SameCanonical rt aliases r s ↔ key = key' := by
  constructor
  · intro h
    have heq : identityKey rt r aliases = identityKey rt s aliases := by
      unfold identityKey
      rw [h.seller, h.product, h.edition, h.region]
    rw [hr, hs] at heq
    exact Except.ok.inj heq
  · rintro rfl
    obtain ⟨hseller, hproduct, hedition, hregion⟩ := identityKey_eq_ok hr
    obtain ⟨hseller', hproduct', hedition', hregion'⟩ := identityKey_eq_ok hs
    exact ⟨hseller.trans hseller'.symm, hproduct.trans hproduct'.symm,
      hedition.trans hedition'.symm, hregion.trans hregion'.symm⟩

section Stages

variable {recalled : List Recalled} {groups : List MergedGroup}
  (hrecalled : (sortedBy (·.recordId) input.candidates).mapM (recallRecord rt input) = .ok recalled)
  (hgroups : mergeGroups rt input (recalled.filterMap Recalled.kept?) = .ok groups)
include hrecalled

theorem notExcluded_of_not_mem {record : RawCandidateRecord} (hrecord : record ∈ input.candidates)
    (hnot : record.recordId ∉ (recalled.filterMap Recalled.exclusion?).map (·.recordId)) :
    NotExcluded rt input record := by
  obtain ⟨outcome, houtcome, hrun⟩ :=
    exists_of_mapM_eq_ok hrecalled (mem_sortedBy.mpr hrecord)
  have hrecalls := recallsAs_of_recallRecord hrun
  cases hrecalls with
  | kept hincluded hkey => exact hincluded
  | @excluded exclusion hid =>
    refine absurd ?_ hnot
    rw [← hid]
    exact List.mem_map_of_mem (List.mem_filterMap.mpr ⟨_, houtcome, rfl⟩)

end Stages

section Groups

variable {kept : List (IdentityKey × RawCandidateRecord)} {groups : List MergedGroup}
  (hgroups : mergeGroups rt input kept = .ok groups)
include hgroups

theorem identities_ids_perm :
    ((groups.map (·.identity)).flatMap (·.recordIds)).Perm (kept.map (·.2.recordId)) := by
  have hids : groups.map (·.identity.recordIds) =
      (sortedSet (kept.map Prod.fst)).map (fun key => (groupOf kept key).map (·.recordId)) :=
    map_groups hgroups (fun key merged hmerges => hmerges.spec.2.2.1)
  have hperm := (groupOf_perm kept).map (·.recordId)
  rw [List.map_flatMap, List.map_map] at hperm
  rw [List.flatMap_def, List.map_map]
  show (groups.map (·.identity.recordIds)).flatten.Perm _
  rw [hids]
  exact hperm

theorem identities_merges_length :
    (groups.map (·.identity)).length + (groups.flatMap (·.merges)).length = kept.length := by
  have hsizes : groups.map (fun merged => merged.merges.length + 1) =
      (sortedSet (kept.map Prod.fst)).map (fun key => (groupOf kept key).length) :=
    map_groups hgroups (fun key merged hmerges => hmerges.spec.2.2.2)
  have hsum : ∀ groups : List MergedGroup,
      (groups.map (fun merged => merged.merges.length + 1)).sum =
        groups.length + (groups.map (fun merged => merged.merges.length)).sum := by
    intro groups
    induction groups with
    | nil => rfl
    | cons merged groups ih =>
      rw [List.map_cons, List.sum_cons, ih, List.map_cons, List.sum_cons, List.length_cons]
      omega
  have htotal := (groupOf_perm kept).length_eq
  rw [List.length_flatMap, ← hsizes, List.length_map, hsum] at htotal
  rw [List.length_map, List.length_flatMap]
  exact htotal

end Groups

variable {root : RawCandidateRecord} {key : IdentityKey} {group : List RawCandidateRecord}

theorem Summarizes.congr {records records' : List RawCandidateRecord} (h : Summarizes records root)
    (hmem : ∀ r, r ∈ records' ↔ r ∈ records) : Summarizes records' root := by
  constructor
  · simpa only [hmem] using h.available
  · simpa only [hmem] using h.authority
  · simpa only [hmem] using h.weakest
  · constructor
    · simpa only [hmem] using h.facts.pairs
    · exact h.facts.distinct
    · simpa only [hmem] using h.facts.evidence

theorem StandsFor.summarizes {aliases : Dict String String}
    (h : StandsFor rt aliases key group root) (hgroup : group ⊆ input.candidates)
    (hdistinct : DistinctValueHashes rt input) : Summarizes group root where
  available := by
    rw [h.available]
    exact List.all_eq_true.mp
  authority := h.authority_mem
  weakest := h.authority_weakest
  facts := h.facts.unionOf hgroup hdistinct

/-- The identity and the representative that recall makes of the records of one key. -/
structure MergedRecords (rt : Runtime) (input : DecisionGraphInput) (key : IdentityKey)
    (group : List RawCandidateRecord) (identity : IdentityRecord) (root : RawCandidateRecord) :
    Prop where
  represents : Represents identity root
  stands : StandsFor rt (aliasMap input) key group root
  recordIds : identity.recordIds = group.map (·.recordId)
  mem_group : ∀ r, r ∈ group ↔ r ∈ input.candidates ∧ NotExcluded rt input r ∧
    identityKey rt r (aliasMap input) = .ok key

theorem MergedRecords.mem_recordsOf {identity : IdentityRecord}
    (h : MergedRecords rt input key group identity root) (r : RawCandidateRecord) :
    r ∈ recordsOf input identity ↔ r ∈ group := by
  unfold recordsOf
  rw [List.mem_filter, h.recordIds, decide_eq_true_eq, List.mem_map]
  constructor
  · rintro ⟨hr, s, hs, hsame⟩
    have hone : s = r := List.inj_on_of_nodup_map input.candidates_nodup
      ((h.mem_group s).mp hs).1 hr hsame
    rw [← hone]
    exact hs
  · intro hr
    exact ⟨((h.mem_group r).mp hr).1, r, hr, rfl⟩

theorem MergedRecords.summarizes {identity : IdentityRecord}
    (h : MergedRecords rt input key group identity root)
    (hdistinct : DistinctValueHashes rt input) : Summarizes (recordsOf input identity) root :=
  (h.stands.summarizes (fun r hr => ((h.mem_group r).mp hr).1) hdistinct).congr h.mem_recordsOf

section Recall

variable {recallResult : RecallResult} (h : recallAndDeduplicate rt input = .ok recallResult)
include h

theorem accountedIds_perm :
    (accountedIds recallResult).Perm (input.candidates.map (·.recordId)) := by
  obtain ⟨recalled, hrecalled, groups, hgroups, rfl⟩ := recallAndDeduplicate_eq_ok.mp h
  unfold accountedIds
  refine List.Perm.trans ?_ (recalled_ids_perm hrecalled)
  exact ((sortedBy_perm _ _).map _).append (identities_ids_perm hgroups)

theorem recall_count : recallResult.rawRecordCount =
    recallResult.identities.length + recallResult.merges.length +
      recallResult.exclusions.length := by
  have htotal := (accountedIds_perm h).length_eq
  obtain ⟨recalled, hrecalled, groups, hgroups, rfl⟩ := recallAndDeduplicate_eq_ok.mp h
  have hids := (identities_ids_perm hgroups).length_eq
  have hsizes := identities_merges_length hgroups
  rw [List.length_map] at hids
  simp only [accountedIds, List.length_append, List.length_map, length_sortedBy] at htotal
  simp only [length_sortedBy]
  omega

theorem exists_mergedRecords :
    ∃ groups : List MergedGroup, recallResult.identities = groups.map (·.identity) ∧
      recallResult.representatives = sortedBy (·.recordId) (groups.map (·.representative)) ∧
      (∀ merged ∈ groups, ∃ key group,
        MergedRecords rt input key group merged.identity merged.representative) ∧
      ∀ r ∈ input.candidates, NotExcluded rt input r → ∃ merged ∈ groups, ∃ key group,
        MergedRecords rt input key group merged.identity merged.representative ∧ r ∈ group := by
  obtain ⟨recalled, hrecalled, groups, hgroups, rfl⟩ := recallAndDeduplicate_eq_ok.mp h
  have hmerged : ∀ key merged,
      MergesKey rt input (recalled.filterMap Recalled.kept?) key merged →
        MergedRecords rt input key (groupOf (recalled.filterMap Recalled.kept?) key)
          merged.identity merged.representative := by
    intro key merged hmerges
    obtain ⟨hrepresents, hstands, hids, -⟩ := hmerges.spec
    exact ⟨hrepresents, hstands, hids, fun r => mem_groupOf_kept hrecalled⟩
  refine ⟨groups, rfl, rfl, fun merged hin => ?_, fun r hr hincluded => ?_⟩
  · obtain ⟨key, -, hmerges⟩ := (mergesKey_of_mergeGroups hgroups).2 merged hin
    exact ⟨key, _, hmerged key merged hmerges⟩
  · obtain ⟨key, -, merged, hin, hmerges, hmem⟩ := exists_merged hrecalled hgroups hr hincluded
    exact ⟨merged, hin, key, _, hmerged key merged hmerges, hmem⟩

theorem notExcluded_of_recall {record : RawCandidateRecord} (hrecord : record ∈ input.candidates)
    (hnot : record.recordId ∉ recallResult.exclusions.map (·.recordId)) :
    NotExcluded rt input record := by
  obtain ⟨recalled, hrecalled, groups, -, rfl⟩ := recallAndDeduplicate_eq_ok.mp h
  refine notExcluded_of_not_mem hrecalled hrecord (fun hmem => hnot ?_)
  obtain ⟨exclusion, hin, hid⟩ := List.mem_map.mp hmem
  exact List.mem_map.mpr ⟨exclusion, mem_sortedBy.mpr hin, hid⟩

/-- Two records that are not excluded are listed by one identity exactly when their
    canonical forms agree. -/
theorem shared_identity_iff {r s : RawCandidateRecord} (hr : r ∈ input.candidates)
    (hs : s ∈ input.candidates) (hnotr : NotExcluded rt input r) (hnots : NotExcluded rt input s) :
    (∃ identity ∈ recallResult.identities,
        r.recordId ∈ identity.recordIds ∧ s.recordId ∈ identity.recordIds) ↔
      SameCanonical rt (aliasMap input) r s := by
  obtain ⟨groups, hidentities, -, hgroups, hcovered⟩ := exists_mergedRecords h
  rw [hidentities]
  constructor
  · rintro ⟨identity, hidentity, hrid, hsid⟩
    obtain ⟨merged, hmerged, rfl⟩ := List.mem_map.mp hidentity
    obtain ⟨key, group, hrecords⟩ := hgroups merged hmerged
    have hlisted : ∀ t ∈ input.candidates, t.recordId ∈ merged.identity.recordIds →
        identityKey rt t (aliasMap input) = .ok key := by
      intro t ht hid
      have hmem : t ∈ recordsOf input merged.identity :=
        List.mem_filter.mpr ⟨ht, decide_eq_true hid⟩
      exact ((hrecords.mem_group t).mp ((hrecords.mem_recordsOf t).mp hmem)).2.2
    exact (sameCanonical_iff (hlisted r hr hrid) (hlisted s hs hsid)).mpr rfl
  · intro hsame
    obtain ⟨merged, hmerged, key, group, hrecords, hmem⟩ := hcovered r hr hnotr
    obtain ⟨-, -, hkey⟩ := (hrecords.mem_group r).mp hmem
    have hkeys : identityKey rt s (aliasMap input) = .ok key := by
      rw [← hkey]
      unfold identityKey
      rw [hsame.seller, hsame.product, hsame.edition, hsame.region]
    refine ⟨merged.identity, List.mem_map_of_mem hmerged, ?_, ?_⟩
    · rw [hrecords.recordIds]
      exact List.mem_map_of_mem hmem
    · rw [hrecords.recordIds]
      exact List.mem_map_of_mem ((hrecords.mem_group s).mpr ⟨hs, hnots, hkeys⟩)

theorem partitioned_of_recall (hdistinct : DistinctValueHashes rt input) :
    Partitioned rt input recallResult := by
  have hperm := accountedIds_perm h
  obtain ⟨groups, hidentities, hrepresentatives, hgroups, -⟩ := exists_mergedRecords h
  constructor
  · intro r hr
    rw [hperm.count_eq]
    exact List.count_eq_one_of_mem input.candidates_nodup (List.mem_map_of_mem hr)
  · intro id hid
    exact List.mem_map.mp (hperm.mem_iff.mp hid)
  · exact recall_count h
  · intro r hr s hs hnotr hnots
    exact shared_identity_iff h hr hs (notExcluded_of_recall h hr hnotr)
      (notExcluded_of_recall h hs hnots)
  · intro identity hidentity
    rw [hidentities] at hidentity
    obtain ⟨merged, hmerged, rfl⟩ := List.mem_map.mp hidentity
    obtain ⟨key, group, hrecords⟩ := hgroups merged hmerged
    refine ⟨merged.representative, ?_, hrecords.represents, hrecords.summarizes hdistinct⟩
    rw [hrepresentatives]
    exact mem_sortedBy.mpr (List.mem_map_of_mem hmerged)
  · intro root hroot
    rw [hrepresentatives] at hroot
    obtain ⟨merged, hmerged, rfl⟩ := List.mem_map.mp (mem_sortedBy.mp hroot)
    obtain ⟨key, group, hrecords⟩ := hgroups merged hmerged
    refine ⟨merged.identity, ?_, hrecords.represents, hrecords.summarizes hdistinct⟩
    rw [hidentities]
    exact List.mem_map_of_mem hmerged
  · intro candidates hnodup hcandidates
    rw [← h]
    refine recallAndDeduplicate_congr ⟨?_, rfl, rfl⟩
    exact sortedBy_congr_perm hcandidates (KeyOn.of_nodup hnodup)

end Recall

/-- On an acyclic alias map recall returns exactly when the records it does not
    exclude can be merged, and then it partitions the candidates. -/
theorem recallAndDeduplicate_partitions (hhex : HexDigests rt)
    (hdistinct : DistinctValueHashes rt input) (hacyclic : Acyclic (aliasMap input)) :
    ((∃ recallResult, recallAndDeduplicate rt input = .ok recallResult) ↔ Mergeable rt input) ∧
      ∀ recallResult, recallAndDeduplicate rt input = .ok recallResult →
        Partitioned rt input recallResult := by
  refine ⟨⟨?_, exists_recall_of_mergeable hhex hacyclic⟩, fun recallResult h => ?_⟩
  · rintro ⟨recallResult, h⟩
    exact mergeable_of_recall h
  · exact partitioned_of_recall h hdistinct

/-! ## A blank edition -/

namespace Sample

/-- A record whose edition is a blank, which folding leaves empty. -/
def blankEdition : RawCandidateRecord :=
  { sso with
    edition := " "
    admitted := by decide +kernel }

def blankInput : DecisionGraphInput :=
  Sample.input.withCandidates [blankEdition] (by decide +kernel)

/-- Two records of one product, in capitals and not. -/
def capitalSso : RawCandidateRecord :=
  { sso with
    recordId := "record_sso_2"
    productId := "SSO"
    packVersion := 2
    admitted := by decide +kernel }

def duplicateInput : DecisionGraphInput :=
  Sample.input.withCandidates [sso, capitalSso] (by decide +kernel)

end Sample

theorem acyclic_of_no_aliases (h : input.identityNormalization.aliases = []) :
    Acyclic (aliasMap input) := by
  intro name hcycle
  have hstep : ∀ a b, ¬ AliasStep (aliasMap input) a b := by
    intro a b hstep
    unfold AliasStep aliasMap at hstep
    rw [h] at hstep
    cases hstep
  obtain ⟨next, hfirst, -⟩ := Relation.TransGen.head'_iff.mp hcycle
  exact hstep name next hfirst

/-- A candidate with a blank edition is admitted, and recall raises on it. -/
theorem recall_raises_on_blank_edition :
    Acyclic (aliasMap Sample.blankInput) ∧
      ¬ ∃ recallResult, recallAndDeduplicate .ascii Sample.blankInput = .ok recallResult := by
  refine ⟨acyclic_of_no_aliases rfl, ?_⟩
  rintro ⟨recallResult, h⟩
  have hraises : (recallAndDeduplicate .ascii Sample.blankInput).isOk = false := by
    decide +kernel
  rw [h] at hraises
  cases hraises

/-- The two records of one product are recalled and partitioned. -/
theorem recallAndDeduplicate_partitions_sample :
    (∃ recallResult, recallAndDeduplicate .ascii Sample.duplicateInput = .ok recallResult) ∧
      ∀ recallResult, recallAndDeduplicate .ascii Sample.duplicateInput = .ok recallResult →
        Partitioned .ascii Sample.duplicateInput recallResult := by
  have hdistinct : DistinctValueHashes .ascii Sample.duplicateInput := by
    intro r hr s hs fact hfact fact' hfact' _
    have hone : ∀ t ∈ Sample.duplicateInput.candidates, ∀ f ∈ t.facts, f = Sample.cloudFact := by
      intro t ht f hf
      rcases List.mem_cons.mp ht with rfl | ht
      · exact List.mem_singleton.mp hf
      · rw [List.mem_singleton.mp ht] at hf
        exact List.mem_singleton.mp hf
    rw [hone r hr fact hfact, hone s hs fact' hfact']
  have hacyclic : Acyclic (aliasMap Sample.duplicateInput) := acyclic_of_no_aliases rfl
  obtain ⟨-, hpartition⟩ := recallAndDeduplicate_partitions hexDigests_ascii hdistinct hacyclic
  exact ⟨exists_of_isOk (by decide +kernel), hpartition⟩

end DecisionEngine
