-- SUMMARY: References by product id: required products and outcome subjects are compared as written, so they resolve exactly when they are written in canonical form.
import SiraSeil.DecisionEngine.Partition

/-!
# References

A representative carries the canonical id of its product, while the products it
requires and the subjects of outcome observations are carried as they were
written. This file says which references a bundle reports as missing, and when
that is the same as having no product with the reference's canonical form.
-/

namespace DecisionEngine

open Domain Sorting Raising

variable {rt : Runtime} {input : DecisionGraphInput}
  {representatives : List RawCandidateRecord}

/-! ## Issues of a closure -/

def missingComponent : String := "MISSING_REQUIRED_COMPONENT"

/-- The issue that `visit` reports for a required product, unless it follows it. -/
def referenceIssue (representatives : List RawCandidateRecord) (dependencyId : String) :
    Option String :=
  match byProduct representatives dependencyId with
  | [] => some missingComponent
  | [_] => none
  | _ => some "AMBIGUOUS_REQUIRED_COMPONENT"

theorem referenceIssue_missing_iff {dependencyId : String} :
    referenceIssue representatives dependencyId = some missingComponent ↔
      ∀ root ∈ representatives, root.productId ≠ dependencyId := by
  have hempty : byProduct representatives dependencyId = [] ↔
      ∀ root ∈ representatives, root.productId ≠ dependencyId := by
    unfold byProduct
    rw [List.filter_eq_nil_iff]
    simp only [decide_eq_true_eq, ne_eq]
  rw [← hempty]
  unfold referenceIssue
  cases byProduct representatives dependencyId with
  | nil => simp
  | cons first rest =>
    cases rest with
    | nil => simp
    | cons second rest =>
      simp only [Option.some.injEq, reduceCtorEq, iff_false]
      decide

/-- Some required product of the record is missing. -/
def MissesReference (representatives : List RawCandidateRecord) (record : RawCandidateRecord) :
    Prop :=
  ∃ dependencyId ∈ record.requiredProductIds.items,
    referenceIssue representatives dependencyId = some missingComponent

/-- What a traversal adds to a state: some records, and the missing references of
    these records and of the one that is being expanded, for which `open_` stands. -/
structure Adds (representatives : List RawCandidateRecord) (s t : ClosureState)
    (open_ : Prop) : Prop where
  collected : ∃ new, t.ordered = s.ordered ++ new ∧
    (missingComponent ∈ t.issues ↔ missingComponent ∈ s.issues ∨ open_ ∨
      ∃ r ∈ new, MissesReference representatives r)

theorem Adds.refl (s : ClosureState) : Adds representatives s s False :=
  ⟨[], (List.append_nil _).symm, by simp⟩

theorem Adds.trans {s t u : ClosureState} {p q : Prop} (hst : Adds representatives s t p)
    (htu : Adds representatives t u q) : Adds representatives s u (p ∨ q) := by
  obtain ⟨new, hnew, hissues⟩ := hst.collected
  obtain ⟨new', hnew', hissues'⟩ := htu.collected
  refine ⟨new ++ new', by rw [hnew', hnew, List.append_assoc], ?_⟩
  rw [hissues', hissues]
  simp only [List.mem_append, or_and_right, exists_or, or_assoc, or_left_comm]

theorem Adds.congr {s t : ClosureState} {p q : Prop} (h : Adds representatives s t p)
    (hpq : p ↔ q) : Adds representatives s t q :=
  propext hpq ▸ h

theorem Adds.other_issue {s : ClosureState} {issue : String} (h : missingComponent ≠ issue) :
    Adds representatives s (s.addIssue issue) False :=
  ⟨[], (List.append_nil _).symm, by simp [ClosureState.addIssue, h]⟩

theorem Adds.missing (s : ClosureState) :
    Adds representatives s (s.addIssue missingComponent) True :=
  ⟨[], (List.append_nil _).symm, by simp [ClosureState.addIssue]⟩

theorem Adds.finish {s t : ClosureState} {record : RawCandidateRecord}
    (h : Adds representatives s t (MissesReference representatives record)) :
    Adds representatives s (t.finish record) False := by
  obtain ⟨new, hnew, hissues⟩ := h.collected
  refine ⟨new ++ [record], ?_, ?_⟩
  · show t.ordered ++ [record] = _
    rw [hnew, List.append_assoc]
  · show missingComponent ∈ t.issues ↔ _
    rw [hissues]
    simp only [List.mem_append, List.mem_singleton, or_and_right, exists_or, exists_eq_left,
      false_or]
    rw [or_comm (b := ∃ r ∈ new, _)]

theorem adds_visit (fuel : Nat) (visiting : List String) (record : RawCandidateRecord)
    (s : ClosureState) :
    Adds representatives s (visit representatives fuel visiting record s) False := by
  induction fuel generalizing visiting record s with
  | zero => exact .refl s
  | succ fuel ih =>
    unfold visit
    split
    · exact .other_issue (by decide)
    · split
      · exact .refl s
      · rename_i hunvisited
        clear hunvisited
        -- The dependencies leave their missing references to the record itself.
        apply Adds.finish
        have hstep : ∀ (s : ClosureState) (id : String), Adds representatives s
            (match byProduct representatives id with
              | [] => s.addIssue "MISSING_REQUIRED_COMPONENT"
              | [dependency] =>
                visit representatives fuel (record.productId :: visiting) dependency s
              | _ => s.addIssue "AMBIGUOUS_REQUIRED_COMPONENT")
            (referenceIssue representatives id = some missingComponent) := by
          intro s id
          unfold referenceIssue
          split
          · exact (Adds.missing s).congr (by simp)
          · exact (ih _ _ s).congr (by simp)
          · exact (Adds.other_issue (by decide)).congr (by decide)
        unfold MissesReference
        generalize record.requiredProductIds.items = ids
        induction ids generalizing s with
        | nil => exact (Adds.refl s).congr (by simp)
        | cons id ids ihids =>
          rw [List.foldl_cons]
          refine ((hstep s id).trans (ihids _)).congr ?_
          simp only [List.exists_mem_cons_iff]

/-- A bundle reports a missing component exactly when one of its records requires a
    product that no representative has. -/
theorem missing_mem_closure_iff (root : RawCandidateRecord) :
    missingComponent ∈ (closure representatives root).2 ↔
      ∃ r ∈ (closure representatives root).1, MissesReference representatives r := by
  have hadds : Adds representatives {}
      (visit representatives (representatives.length + 1) [] root {}) False :=
    adds_visit (representatives.length + 1) [] root {}
  obtain ⟨new, hnew, hissues⟩ := hadds.collected
  unfold closure
  dsimp only
  rw [mem_sortedSet, hissues, hnew]
  simp

/-! ## Canonical references -/

theorem canonical_productId (hstable : FoldStable rt)
    (hfolded : FoldedAliases rt (aliasMap input))
    (hpacks : packRepresentatives rt input = .ok representatives) {root : RawCandidateRecord}
    (hroot : root ∈ representatives) :
    canonical rt root.productId (aliasMap input) = .ok root.productId := by
  unfold packRepresentatives at hpacks
  obtain ⟨recallResult, hrecall, hoffers⟩ := bind_eq_ok.mp hpacks
  obtain ⟨bare, hbare, hoffer⟩ := (mem_of_mapM_eq_ok hoffers).mp hroot
  have hproduct : root.productId = bare.productId := by
    rw [RawCandidateRecord.new_eq_ok hoffer]
  obtain ⟨groups, -, hrepresentatives, hgroups, -⟩ := exists_mergedRecords hrecall
  rw [hrepresentatives] at hbare
  obtain ⟨merged, hmerged, rfl⟩ := List.mem_map.mp (mem_sortedBy.mp hbare)
  obtain ⟨key, group, hrecords⟩ := hgroups merged hmerged
  obtain ⟨r, hr, -⟩ := hrecords.stands.authority_mem
  obtain ⟨-, hcanonical, -, -⟩ := identityKey_eq_ok ((hrecords.mem_group r).mp hr).2.2
  rw [hproduct, hrecords.stands.productId]
  exact canonical_of_canonical hstable hfolded hcanonical

/-- Some recalled product has the canonical form of the reference. -/
def NamesProduct (rt : Runtime) (input : DecisionGraphInput)
    (representatives : List RawCandidateRecord) (reference : String) : Prop :=
  ∃ root ∈ representatives,
    canonical rt root.productId (aliasMap input) = canonical rt reference (aliasMap input)

/-- The observation counts for its own subject and criterion: its sources are active
    and no later observation replaces it. -/
def InForce (input : DecisionGraphInput) (observation : OutcomeObservation) : Prop :=
  outcomeValue input observation.subjectId observation.criterionId = some observation

/-- References resolve up to canonical form: a required product is reported missing
    exactly when no recalled product has its canonical form, and an observation in
    force is applied to the pack plan of a root exactly when its subject has the
    canonical form of the root. -/
structure ReferencesResolve (rt : Runtime) (input : DecisionGraphInput)
    (representatives : List RawCandidateRecord) : Prop where
  reference : ∀ r ∈ representatives, ∀ id ∈ r.requiredProductIds.items,
    (referenceIssue representatives id = some missingComponent ↔
      ¬ NamesProduct rt input representatives id)
  bundle : ∀ root ∈ representatives,
    (missingComponent ∈ (closure representatives root).2 ↔
      ∃ r ∈ (closure representatives root).1, ∃ id ∈ r.requiredProductIds.items,
        ¬ NamesProduct rt input representatives id)
  outcome : ∀ root ∈ representatives, ∀ observation, InForce input observation →
    (outcomeValue input root.productId observation.criterionId = some observation ↔
      canonical rt root.productId (aliasMap input) =
        canonical rt observation.subjectId (aliasMap input))

/-- Every reference with the canonical form of a recalled product is written in it. -/
structure CanonicalReferences (rt : Runtime) (input : DecisionGraphInput)
    (representatives : List RawCandidateRecord) : Prop where
  required : ∀ r ∈ representatives, ∀ id ∈ r.requiredProductIds.items,
    ∀ root ∈ representatives,
      canonical rt root.productId (aliasMap input) = canonical rt id (aliasMap input) →
        id = root.productId
  subjects : ∀ observation, InForce input observation → ∀ root ∈ representatives,
    canonical rt root.productId (aliasMap input) =
        canonical rt observation.subjectId (aliasMap input) →
      observation.subjectId = root.productId

theorem outcomeValue_eq_some {subjectId criterionId : String} {observation : OutcomeObservation}
    (h : outcomeValue input subjectId criterionId = some observation) :
    observation.subjectId = subjectId ∧ observation.criterionId = criterionId := by
  obtain ⟨own, -, heq⟩ := List.mem_map.mp (Dict.mem_of_get?_ofList h)
  obtain ⟨hkey, rfl⟩ := Prod.mk.inj heq
  exact Prod.mk.inj hkey

theorem applied_iff {observation : OutcomeObservation} (hforce : InForce input observation)
    (subjectId : String) :
    outcomeValue input subjectId observation.criterionId = some observation ↔
      observation.subjectId = subjectId := by
  constructor
  · intro h
    exact (outcomeValue_eq_some h).1
  · rintro rfl
    exact hforce

/-- References resolve up to canonical form exactly when those that name a recalled
    product are written in canonical form. -/
theorem referencesResolve_iff_canonicalReferences (hstable : FoldStable rt)
    (hfolded : FoldedAliases rt (aliasMap input))
    (hpacks : packRepresentatives rt input = .ok representatives) :
    ReferencesResolve rt input representatives ↔ CanonicalReferences rt input representatives := by
  have hown : ∀ root ∈ representatives,
      canonical rt root.productId (aliasMap input) = .ok root.productId :=
    fun root hroot => canonical_productId hstable hfolded hpacks hroot
  constructor
  · intro h
    refine ⟨fun r hr id hid root hroot hsame => ?_, fun observation hforce root hroot hsame => ?_⟩
    · -- The reference is not reported missing, so it is the id of some product.
      have hfound := mt (h.reference r hr id hid).mp (not_not.mpr ⟨root, hroot, hsame⟩)
      rw [referenceIssue_missing_iff] at hfound
      push Not at hfound
      obtain ⟨other, hother, rfl⟩ := hfound
      rw [hown root hroot, hown other hother] at hsame
      exact (Except.ok.inj hsame).symm
    · exact (applied_iff hforce root.productId).mp ((h.outcome root hroot observation hforce).mpr hsame)
  · intro h
    have hreference : ∀ r ∈ representatives, ∀ id ∈ r.requiredProductIds.items,
        (referenceIssue representatives id = some missingComponent ↔
          ¬ NamesProduct rt input representatives id) := by
      intro r hr id hid
      rw [referenceIssue_missing_iff]
      constructor
      · rintro hnone ⟨root, hroot, hsame⟩
        exact hnone root hroot (h.required r hr id hid root hroot hsame).symm
      · rintro hnone root hroot rfl
        exact hnone ⟨root, hroot, rfl⟩
    refine ⟨hreference, fun root hroot => ?_, fun root hroot observation hforce => ?_⟩
    · rw [missing_mem_closure_iff]
      refine exists_congr (fun r => and_congr_right (fun hr => ?_))
      refine exists_congr (fun id => and_congr_right (fun hid => ?_))
      exact hreference r (closure_subset hroot hr) id hid
    · rw [applied_iff hforce]
      constructor
      · rintro hsubject
        rw [hsubject]
      · exact h.subjects observation hforce root hroot

/-! ## A required product in capitals -/

namespace Sample

/-- A product that requires another one by a name in capitals. -/
def shoutingCrm : RawCandidateRecord :=
  { crm with
    requiredProductIds := .of ["SSO"]
    admitted := by decide +kernel }

def shoutingInput : DecisionGraphInput :=
  Sample.input.withCandidates [shoutingCrm, sso] (by decide +kernel)

end Sample

theorem foldedAliases_of_no_aliases (h : input.identityNormalization.aliases = []) :
    FoldedAliases rt (aliasMap input) := by
  intro item hitem
  unfold aliasMap at hitem
  rw [h] at hitem
  cases hitem

/-- A recalled product is reported missing when it is required in capitals. -/
theorem capitals_are_reported_missing :
    ∃ representatives, packRepresentatives .ascii Sample.shoutingInput = .ok representatives ∧
      ¬ ReferencesResolve .ascii Sample.shoutingInput representatives := by
  obtain ⟨representatives, hpacks, hfacts⟩ := exists_of_toOption_any
    (x := packRepresentatives .ascii Sample.shoutingInput)
    (p := fun representatives =>
      representatives.any (fun r => r.requiredProductIds.items.contains "SSO") &&
        representatives.any (fun r => r.productId == "sso") &&
        (byProduct representatives "SSO").isEmpty)
    (by decide +kernel)
  simp only [Bool.and_eq_true, List.any_eq_true, List.contains_iff_mem, beq_iff_eq] at hfacts
  obtain ⟨⟨⟨r, hr, hrequired⟩, ⟨root, hroot, hproduct⟩⟩, hempty⟩ := hfacts
  refine ⟨representatives, hpacks, fun h => ?_⟩
  refine (h.reference r hr "SSO" hrequired).mp ?_ ⟨root, hroot, ?_⟩
  · unfold referenceIssue
    rw [List.isEmpty_iff.mp hempty]
  · rw [hproduct]
    decide +kernel

/-- The bundle whose root requires a product by its canonical id. -/
theorem referencesResolve_iff_canonicalReferences_sample :
    ∃ representatives, packRepresentatives .ascii Sample.bundleInput = .ok representatives ∧
      (ReferencesResolve .ascii Sample.bundleInput representatives ↔
        CanonicalReferences .ascii Sample.bundleInput representatives) := by
  obtain ⟨representatives, hpacks⟩ := exists_of_isOk
    (x := packRepresentatives .ascii Sample.bundleInput) (by decide +kernel)
  exact ⟨representatives, hpacks, referencesResolve_iff_canonicalReferences
    Runtime.fold_fold_ascii (foldedAliases_of_no_aliases rfl) hpacks⟩

end DecisionEngine
