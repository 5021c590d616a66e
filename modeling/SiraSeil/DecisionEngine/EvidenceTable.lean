-- SUMMARY: The evidence assessments of an input are exactly one for each cited pair, and each is acceptable exactly under the criteria of its policy.
import Mathlib.Algebra.Order.Field.Basic
import SiraSeil.DecisionEngine.Recall
import SiraSeil.Domain.Hashing

/-!
# The evidence table

What `assess_evidence` returns: which pairs of an evidence id and a field it assesses, and what
puts an assessment into the states `ACCEPTABLE` and `CONFLICT`. Ages are compared as whole
microseconds.
-/

namespace DecisionEngine

open Domain Sorting Raising

/-! ## Cited pairs -/

/-- A fact of the field cites the evidence. -/
def CitedBy (facts : List ProductFact) (evidenceId field : String) : Prop :=
  ∃ fact ∈ facts, fact.field = field ∧ evidenceId ∈ fact.evidenceIds.items

/-- The pair is cited by a representative or a current action, or belongs to an outcome of a
    declared criterion. -/
def Cited (input : DecisionGraphInput) (recallResult : RecallResult) (evidenceId field : String) :
    Prop :=
  (∃ r ∈ recallResult.representatives, CitedBy r.facts evidenceId field) ∨
    (∃ a ∈ input.currentActions, CitedBy a.facts evidenceId field) ∨
      ∃ o ∈ input.outcomeValues, evidenceId ∈ o.evidenceIds.items ∧
        ∃ c ∈ input.preferences, c.criterionId = o.criterionId ∧ c.field = field

variable {input : DecisionGraphInput} {recallResult : RecallResult} {evidenceId field : String}

theorem mem_factPairs {facts : List ProductFact} :
    toLex (evidenceId, field) ∈ factPairs facts ↔ CitedBy facts evidenceId field := by
  simp only [factPairs, List.mem_flatMap, List.mem_map, CitedBy]
  constructor
  · rintro ⟨fact, hfact, id, hid, hpair⟩
    obtain ⟨rfl, rfl⟩ := Prod.mk.inj hpair
    exact ⟨fact, hfact, rfl, hid⟩
  · rintro ⟨fact, hfact, rfl, hid⟩
    exact ⟨fact, hfact, evidenceId, hid, rfl⟩

theorem mem_outcomePairs {o : OutcomeObservation} :
    toLex (evidenceId, field) ∈
        outcomePairs (.ofList (input.preferences.map (fun c => (c.criterionId, c.field)))) o ↔
      evidenceId ∈ o.evidenceIds.items ∧
        ∃ c ∈ input.preferences, c.criterionId = o.criterionId ∧ c.field = field := by
  unfold outcomePairs
  rw [← Dict.get?_ofList_key input.preferences_nodup]
  cases (Dict.ofList (input.preferences.map (fun c => (c.criterionId, c.field)))).get?
      o.criterionId with
  | none => simp
  | some declared =>
    simp only [List.mem_map, Option.some.injEq]
    constructor
    · rintro ⟨id, hid, hpair⟩
      obtain ⟨rfl, rfl⟩ := Prod.mk.inj hpair
      exact ⟨hid, rfl⟩
    · rintro ⟨hid, rfl⟩
      exact ⟨evidenceId, hid, rfl⟩

theorem mem_evidencePairs :
    toLex (evidenceId, field) ∈ evidencePairs input recallResult ↔
      Cited input recallResult evidenceId field := by
  simp only [evidencePairs, List.mem_append, List.mem_flatMap, mem_factPairs, mem_outcomePairs,
    Cited, or_assoc]

/-! ## One assessment -/

/-- The oldest possible age of the observation is within the policy. -/
def Fresh (policy : EvidencePolicy) (evaluatedAt observedAt : Datetime) : Prop :=
  evaluatedAt.micros - observedAt.micros ≤ policy.freshnessSlaSeconds * 1000000

/-- All criteria of a policy hold of a record. -/
@[mk_iff]
structure AcceptableRecord (rt : Runtime) (evaluatedAt : Datetime) (record : EvidenceRecord)
    (policy : EvidencePolicy) : Prop where
  source : record.sourceClass ∈ policy.allowedSourceClasses
  method : record.verificationMethod ∈ policy.allowedVerificationMethods
  scope : scopeMatches rt policy.requiredScope record.verificationScope = true
  reconstructable : record.reconstructable = true
  undisputed : record.disputed = false
  unrevoked : record.revoked = false
  fresh : ∃ observedAt, record.observedAtLower = some observedAt ∧
    Fresh policy evaluatedAt observedAt

variable {rt : Runtime} {record : EvidenceRecord} {policy : EvidencePolicy} {now : Datetime}

/-- The upper bound of an age is at most one exactly when the age is within the policy. -/
theorem evidenceAgeBounds_fresh {lower upper : Datetime} {age : EvidenceAgeBounds}
    (h : evidenceAgeBounds now lower upper policy.freshnessSlaSeconds = .ok age) :
    age.upper ≤ 1 ↔ Fresh policy now lower := by
  unfold evidenceAgeBounds at h
  split at h
  · cases h
  · split at h
    · cases h
    · next hsla =>
      split at h
      · cases h
      · dsimp only at h
        unfold EvidenceAgeBounds.new at h
        split at h
        · cases h
          have hpos : (0 : ℚ) < (policy.freshnessSlaSeconds * 1000000 : Nat) := by
            exact_mod_cast Nat.mul_pos (by omega) (by norm_num)
          rw [div_le_one hpos, Fresh]
          exact_mod_cast Iff.rfl
        · cases h

theorem EvidenceRecord.observed (record : EvidenceRecord) :
    record.observedAtLower.isSome = record.observedAtUpper.isSome := by
  have hadmitted := record.admitted
  unfold EvidenceRecordData.postInit at hadmitted
  simp only [check_bind_eq_ok] at hadmitted
  obtain ⟨-, -, -, htimes⟩ := hadmitted
  split at htimes
  · next hlower hupper => rw [hlower, hupper]
  · next hlower hupper => rw [hlower, hupper]; rfl
  · cases htimes

theorem assessmentAge_spec {age : Option EvidenceAgeBounds}
    (h : assessmentAge record policy now = .ok age) :
    (∃ bounds, age = some bounds ∧ bounds.upper ≤ 1) ↔
      ∃ observedAt, record.observedAtLower = some observedAt ∧ Fresh policy now observedAt := by
  have hboth := record.observed
  unfold assessmentAge at h
  split at h
  · next lower upper hlower hupper =>
    obtain ⟨bounds, hbounds, rfl⟩ := map_eq_ok.mp h
    simp only [hlower, Option.some.injEq, exists_eq_left', evidenceAgeBounds_fresh hbounds]
  · next hnone =>
    cases h
    cases hlower : record.observedAtLower with
    | none => simp
    | some lower =>
      cases hupper : record.observedAtUpper with
      | none => simp [hlower, hupper] at hboth
      | some upper => exact absurd hupper (hnone lower upper hlower)

/-- The record is acceptable under its policy exactly when all criteria hold, and in conflict when
    it is disputed or revoked. -/
theorem assessment_spec {a : EvidenceAssessment}
    (h : assessment rt record policy field now = .ok a) :
    (a.state = .acceptable ↔ AcceptableRecord rt now record policy) ∧
      (record.disputed = true ∨ record.revoked = true → a.state = .conflict) := by
  unfold assessment at h
  obtain ⟨age, hage, h⟩ := bind_eq_ok.mp h
  rw [← pure_eq_ok.mp h]
  dsimp only
  have hfresh : age.map (fun age => decide (age.upper ≤ 1)) = some true ↔
      ∃ observedAt, record.observedAtLower = some observedAt ∧ Fresh policy now observedAt := by
    rw [← assessmentAge_spec hage]
    cases age <;> simp
  generalize age.map (fun age => decide (age.upper ≤ 1)) = current at hfresh
  rw [acceptableRecord_iff, ← hfresh]
  clear h hage hfresh
  constructor
  · -- The states before `ACCEPTABLE` are taken when one of the criteria fails.
    cases hdisputed : record.disputed with
    | true => simp
    | false =>
      cases hrevoked : record.revoked with
      | true => simp
      | false =>
        rcases current with _ | _ | _
        · simp
        · simp
        · by_cases hsource : record.sourceClass ∈ policy.allowedSourceClasses
          · by_cases hmethod : record.verificationMethod ∈ policy.allowedVerificationMethods
            · cases scopeMatches rt policy.requiredScope record.verificationScope <;>
                cases record.reconstructable <;> simp [hsource, hmethod]
            · simp [hmethod]
          · simp [hsource]
  · rintro (hdisputed | hrevoked)
    · simp [hdisputed]
    · simp [hrevoked]

/-! ## The table -/

theorem assessPair_cases {pair : EvidencePair} {a : EvidenceAssessment}
    (h : assessPair rt input pair = .ok a) :
    ∃ policy ∈ input.evidencePolicies, policy.field = a.field ∧
      ((∃ record ∈ input.evidence, record.evidenceId = a.evidenceId ∧
          assessment rt record policy a.field input.evaluatedAt = .ok a) ∨
        ((∀ record ∈ input.evidence, record.evidenceId ≠ a.evidenceId) ∧
          a = missingAssessment a.evidenceId a.field)) := by
  have hown := assessPair_pair h
  subst hown
  unfold assessPair at h
  simp only [ofLex_toLex] at h
  split at h
  · cases h
  · next hpolicy =>
    obtain ⟨policy, hmem, hfield, rfl⟩ :=
      (Dict.get?_ofList_key input.evidencePolicies_nodup).mp hpolicy
    refine ⟨policy, hmem, hfield, ?_⟩
    split at h
    · next hmissing =>
      refine .inr ⟨fun record hrecord hid => ?_, (Except.ok.inj h).symm⟩
      rw [(Dict.get?_ofList_key input.evidence_nodup).mpr ⟨record, hrecord, hid, rfl⟩] at hmissing
      cases hmissing
    · next hrecord =>
      obtain ⟨record, hmem, hid, rfl⟩ := (Dict.get?_ofList_key input.evidence_nodup).mp hrecord
      exact .inl ⟨record, hmem, hid, h⟩

/-- The assessments of an input: one for each cited pair, in their order, acceptable and in conflict
    under the criteria of the policies, with ages that are ordered. -/
structure ExactTable (rt : Runtime) (input : DecisionGraphInput) (recallResult : RecallResult)
    (table : List EvidenceAssessment) : Prop where
  sorted : (table.map (fun a => toLex (a.evidenceId, a.field))).Pairwise (· < ·)
  cited : ∀ evidenceId field, (∃ a ∈ table, a.evidenceId = evidenceId ∧ a.field = field) ↔
    Cited input recallResult evidenceId field
  acceptable : ∀ a ∈ table, a.state = .acceptable ↔
    ∃ record ∈ input.evidence, ∃ policy ∈ input.evidencePolicies,
      record.evidenceId = a.evidenceId ∧ policy.field = a.field ∧
        AcceptableRecord rt input.evaluatedAt record policy
  conflict : ∀ a ∈ table, ∀ record ∈ input.evidence, record.evidenceId = a.evidenceId →
    record.disputed = true ∨ record.revoked = true → a.state = .conflict
  ages : ∀ a ∈ table, ∀ age, a.ageBounds = some age → 0 ≤ age.lower ∧ age.lower ≤ age.upper

/-- Whatever the representatives are, the assessments that are returned are an exact table. -/
theorem assessEvidence_exact {table : List EvidenceAssessment}
    (h : assessEvidence rt input recallResult = .ok table) :
    ExactTable rt input recallResult table := by
  unfold assessEvidence at h
  have hpairs : table.map (fun a => toLex (a.evidenceId, a.field)) =
      (sortedSet (evidencePairs input recallResult)).map id :=
    map_eq_of_mapM_eq_ok h (fun pair _ a ha => assessPair_pair ha)
  rw [List.map_id] at hpairs
  -- Evidence and policies are unique, so what an assessment was made from is determined.
  have hrecord : ∀ r ∈ input.evidence, ∀ r' ∈ input.evidence, r.evidenceId = r'.evidenceId → r = r' :=
    fun r hr r' hr' hid => List.inj_on_of_nodup_map input.evidence_nodup hr hr' hid
  have hpolicy : ∀ p ∈ input.evidencePolicies, ∀ p' ∈ input.evidencePolicies,
      p.field = p'.field → p = p' :=
    fun p hp p' hp' hfield => List.inj_on_of_nodup_map input.evidencePolicies_nodup hp hp' hfield
  have hmade : ∀ a ∈ table, ∃ pair, assessPair rt input pair = .ok a := by
    intro a ha
    obtain ⟨pair, -, hpair⟩ := (mem_of_mapM_eq_ok h).mp ha
    exact ⟨pair, hpair⟩
  refine ⟨?_, ?_, ?_, ?_, fun a _ age _ => age.ordered⟩
  · rw [hpairs]
    exact sortedSet_pairwise_lt _
  · intro evidenceId field
    rw [← mem_evidencePairs, ← mem_sortedSet, ← hpairs, List.mem_map]
    simp only [toLex_inj, Prod.mk.injEq]
  · intro a ha
    obtain ⟨pair, hpair⟩ := hmade a ha
    obtain ⟨policy, hp, hfield, ⟨record, hr, hid, hassessed⟩ | ⟨hnone, hmissing⟩⟩ :=
      assessPair_cases hpair
    · rw [(assessment_spec hassessed).1]
      constructor
      · exact fun hacceptable => ⟨record, hr, policy, hp, hid, hfield, hacceptable⟩
      · rintro ⟨record', hr', policy', hp', hid', hfield', hacceptable⟩
        rw [hrecord record hr record' hr' (hid.trans hid'.symm),
          hpolicy policy hp policy' hp' (hfield.trans hfield'.symm)]
        exact hacceptable
    · constructor
      · intro hstate
        rw [hmissing] at hstate
        cases hstate
      · rintro ⟨record, hr, policy, -, hid, -⟩
        exact absurd hid (hnone record hr)
  · intro a ha record hr hid hdoubted
    obtain ⟨pair, hpair⟩ := hmade a ha
    obtain ⟨policy, -, -, ⟨record', hr', hid', hassessed⟩ | ⟨hnone, -⟩⟩ := assessPair_cases hpair
    · rw [hrecord record hr record' hr' (hid.trans hid'.symm)] at hdoubted
      exact (assessment_spec hassessed).2 hdoubted
    · exact absurd hid (hnone record hr)

namespace Sample

/-- No candidate is recalled. -/
def noRecall : RecallResult where
  identities := []
  merges := []
  representatives := []
  exclusions := []
  rawRecordCount := 0

end Sample

theorem assessEvidence_exact_sample :
    ∃ table, assessEvidence .ascii Sample.input Sample.noRecall = .ok table ∧
      ExactTable .ascii Sample.input Sample.noRecall table := by
  obtain ⟨table, htable⟩ := exists_of_isOk
    (x := assessEvidence .ascii Sample.input Sample.noRecall) (by decide +kernel)
  exact ⟨table, htable, assessEvidence_exact htable⟩

end DecisionEngine
