-- SUMMARY: The advisory review of the policy guardrail: what is read of a response of any shape, when its outcome is CONSISTENT, and that the order of findings does not matter.
import SiraSeil.Domain.JsonText
import SiraSeil.Persistence.MissionRepository

/-!
# Automated Reasoning reviews

`integrations/automated_reasoning.py` reads the response of the guardrail service, which may have
any shape, and folds the kinds of its findings into one outcome.
-/

namespace Integrations

open Domain Raising

/-- A binary float -/
inductive Binary64
  | nan
  | infinity (negative : Bool)
  | finite (value : ℚ)
  deriving DecidableEq

/-- A value of a response -/
abbrev Reply := TypedJson Binary64

abbrev ReplyFields := List (PyStr × Reply)

def key (name : String) : PyStr := PyStr.ofChars name.toList

/-- `fields.get(name)` -/
def field (fields : ReplyFields) (name : String) : Option Reply :=
  fields.lookup (key name)

/-- The members of a mapping; everything else is read as an empty one. -/
def members : Option Reply → ReplyFields
  | some (.obj fields) => fields
  | _ => []

/-- The items of a list; everything else is skipped. -/
def items : Option Reply → List Reply
  | some (.seq values) => values
  | _ => []

inductive ReviewError
  | attribute
  | type
  | value
  | overflow
  | validation
  deriving DecidableEq

/-! ## Numbers -/

/-- `int` -/
def pyInt (decimal : Char → Option Nat) : Reply → Except ReviewError Int
  | .leaf .null => .error .type
  | .leaf (.bool b) => .ok (if b then 1 else 0)
  | .leaf (.int n) => .ok n
  | .leaf (.str s) =>
    -- a lone surrogate is no digit
    if ∀ c ∈ s, PyStr.Scalar c then
      match Persistence.intOfText decimal (String.ofList (s.map (fun c => Char.ofNat c.val))) with
      | some n => .ok n
      | none => .error .value
    else .error .value
  | .leaf (.decimal .nan) => .error .value
  | .leaf (.decimal (.infinity _)) => .error .overflow
  | .leaf (.decimal (.finite x)) => .ok (x.num.tdiv x.den)
  | .seq _ | .obj _ => .error .type

/-- The nearest number of 53 binary digits, the even one of two -/
def roundNat (n : Nat) : Nat :=
  let unit := 2 ^ (n.log2 - 52)
  let rest := n % unit
  if unit < 2 * rest ∨ unit = 2 * rest ∧ n / unit % 2 = 1 then (n / unit + 1) * unit
  else n / unit * unit

/-- `float` of an integer -/
def floatOfInt (n : Int) : Except ReviewError Binary64 :=
  if 2 ^ 1024 ≤ roundNat n.natAbs then .error .overflow
  else .ok (.finite (n.sign * roundNat n.natAbs))

/-! ## Findings -/

inductive FindingKind
  | valid
  | invalid
  | satisfiable
  | impossible
  | translationAmbiguous
  | tooComplex
  | noTranslations
  deriving DecidableEq

def FindingKind.name : FindingKind → String
  | .valid => "valid"
  | .invalid => "invalid"
  | .satisfiable => "satisfiable"
  | .impossible => "impossible"
  | .translationAmbiguous => "translationAmbiguous"
  | .tooComplex => "tooComplex"
  | .noTranslations => "noTranslations"

/-- `_FINDING_TYPES` -/
def findingTypes : List FindingKind :=
  [.valid, .invalid, .satisfiable, .impossible, .translationAmbiguous, .tooComplex, .noTranslations]

inductive ReviewOutcome
  | consistent
  | contradicted
  | needsContext
  | impossible
  | ambiguous
  | tooComplex
  | notEvaluated
  | error
  deriving DecidableEq

/-- `_OUTCOME_PRIORITY` -/
def ReviewOutcome.priority : ReviewOutcome → Nat
  | .error => 7
  | .tooComplex => 6
  | .ambiguous => 5
  | .impossible => 4
  | .contradicted => 3
  | .needsContext => 2
  | .consistent => 1
  | .notEvaluated => 0

/-- `_outcome` -/
def FindingKind.outcome : FindingKind → ReviewOutcome
  | .valid => .consistent
  | .invalid => .contradicted
  | .satisfiable => .needsContext
  | .impossible => .impossible
  | .translationAmbiguous => .ambiguous
  | .tooComplex => .tooComplex
  | .noTranslations => .notEvaluated

structure AutomatedReasoningFinding where
  kind : FindingKind
  ruleIds : List PyStr := []
  translationConfidence : Option Binary64 := none
  untranslatedPremises : Nat := 0
  untranslatedClaims : Nat := 0

structure AutomatedReasoningReview where
  outcome : ReviewOutcome
  findings : List AutomatedReasoningFinding
  evaluatedUnits : Int
  inputHash : String
  authority : String := "EXPLANATORY_ONLY"
  authoritative : Bool := false
  mayAuthorize : Bool := false

/-- The kind of a finding under exactly one known name -/
def findingKind : Reply → Option FindingKind
  | .obj fields =>
    match findingTypes.filter (fun kind => (field fields kind.name).isSome) with
    | [kind] => some kind
    | _ => none
  | _ => none

/-- The identifier of a rule, unless it is empty -/
def identifier : Reply → Option PyStr
  | .obj fields =>
    match field fields "identifier" with
    | some (.leaf (.str s)) => if s = [] then none else some s
    | _ => none
  | _ => none

/-- `float(confidence)` of a number -/
def confidenceOf : Option Reply → Except ReviewError (Option Binary64)
  | some (.leaf (.bool b)) => .ok (some (.finite (if b then 1 else 0)))
  | some (.leaf (.int n)) => some <$> floatOfInt n
  | some (.leaf (.decimal x)) => .ok (some x)
  | _ => .ok none

section Parsing

-- Which digits the Unicode database knows, and which findings pass the field checks
variable (decimal : Char → Option Nat) (admits : AutomatedReasoningFinding → Bool)

/-- `_parse_finding` -/
def parseFinding (value : Reply) : Except ReviewError (Option AutomatedReasoningFinding) :=
  match findingKind value with
  | none => .ok none
  | some kind => do
    let detail := members (field (members (some value)) kind.name)
    let rules := ["supportingRules", "contradictingRules"].flatMap
      (fun name => (items (field detail name)).filterMap identifier)
    let translation := members (field detail "translation")
    let confidence ← confidenceOf (field translation "confidence")
    let finding : AutomatedReasoningFinding :=
      { kind := kind
        ruleIds := rules.eraseDups
        translationConfidence := confidence
        untranslatedPremises := (items (field translation "untranslatedPremises")).length
        untranslatedClaims := (items (field translation "untranslatedClaims")).length }
    if admits finding then return some finding else throw .validation

/-- The findings of one assessment -/
def assessmentFindings (assessment : Reply) : List Reply :=
  items (field (members (field (members (some assessment)) "automatedReasoningPolicy")) "findings")

/-- The findings of all assessments, in their order -/
def listedFindings (response : ReplyFields) : List Reply :=
  (items (field response "assessments")).flatMap assessmentFindings

/-- The findings that are recognized -/
def parseFindings : List Reply → Except ReviewError (List AutomatedReasoningFinding)
  | [] => .ok []
  | value :: values => do
    let parsed ← parseFinding admits value
    let rest ← parseFindings values
    return parsed.toList ++ rest

/-- The policy units that the service charged -/
def policyUnits (response : ReplyFields) : Except ReviewError Int :=
  match (field response "usage").getD (.obj []) with
  | .obj usage => pyInt decimal ((field usage "automatedReasoningPolicyUnits").getD (.leaf (.int 0)))
  | _ => .ok 0

/-- The first outcome of the highest priority -/
def worstOutcome : List ReviewOutcome → ReviewOutcome
  | [] => .error
  | outcome :: outcomes => Sorting.firstMax ReviewOutcome.priority outcome outcomes

/-- `_parse_review` -/
def parseReview (inputHash : String) : Reply → Except ReviewError AutomatedReasoningReview
  | .obj response => do
    let units ← policyUnits decimal response
    let parsed ← parseFindings admits (listedFindings response)
    if units ≤ 0 then
      return { outcome := .notEvaluated, findings := parsed, evaluatedUnits := 0, inputHash := inputHash }
    else
      return { outcome := worstOutcome (parsed.map (·.kind.outcome)), findings := parsed,
               evaluatedUnits := units, inputHash := inputHash }
  | _ => .error .attribute

end Parsing

/-! ## Outcomes -/

theorem worstOutcome_eq_consistent {outcomes : List ReviewOutcome} :
    worstOutcome outcomes = .consistent ↔
      .consistent ∈ outcomes ∧ ∀ outcome ∈ outcomes, outcome = .consistent ∨ outcome = .notEvaluated := by
  have hpriority : ∀ outcome : ReviewOutcome, outcome.priority ≤ ReviewOutcome.consistent.priority ↔
      outcome = .consistent ∨ outcome = .notEvaluated := by
    intro outcome
    cases outcome <;> decide
  cases outcomes with
  | nil => simp [worstOutcome]
  | cons outcome outcomes =>
    obtain ⟨hmem, hmax⟩ := Sorting.firstMax_spec ReviewOutcome.priority outcome outcomes
    constructor
    · intro h
      simp only [worstOutcome] at h
      rw [h] at hmem hmax
      exact ⟨hmem, fun other hother => (hpriority other).mp (hmax other hother)⟩
    · rintro ⟨hconsistent, hall⟩
      -- only the two lowest priorities occur, and the maximum is not below the higher of them
      have hle := hmax .consistent hconsistent
      rcases hall _ hmem with h | h
      · exact h
      · rw [h] at hle
        exact absurd hle (by decide)

/-- The priorities tell the outcomes apart, so the order in which they are compared is not seen. -/
theorem worstOutcome_perm {outcomes outcomes' : List ReviewOutcome} (h : outcomes.Perm outcomes') :
    worstOutcome outcomes = worstOutcome outcomes' := by
  have hinjective : ∀ a b : ReviewOutcome, a.priority = b.priority → a = b := by
    intro a b
    cases a <;> cases b <;> decide
  cases outcomes with
  | nil =>
    have hnil := List.nil_perm.mp h
    rw [hnil]
  | cons outcome outcomes =>
    cases outcomes' with
    | nil => exact absurd h.length_eq (by simp)
    | cons outcome' outcomes' =>
      obtain ⟨hmem, hmax⟩ := Sorting.firstMax_spec ReviewOutcome.priority outcome outcomes
      obtain ⟨hmem', hmax'⟩ := Sorting.firstMax_spec ReviewOutcome.priority outcome' outcomes'
      apply hinjective
      apply Nat.le_antisymm
      · exact hmax' _ (h.mem_iff.mp hmem)
      · exact hmax _ (h.mem_iff.mpr hmem')

/-! ## Recognized findings -/

section Reviews

variable {decimal : Char → Option Nat} {admits : AutomatedReasoningFinding → Bool}

theorem kind_parseFinding {value : Reply} {parsed : Option AutomatedReasoningFinding}
    (h : parseFinding admits value = .ok parsed) : parsed.map (·.kind) = findingKind value := by
  unfold parseFinding at h
  split at h
  next hkind =>
    cases h
    rw [hkind]
    rfl
  next kind hkind =>
    obtain ⟨confidence, -, h⟩ := bind_eq_ok.mp h
    simp only at h
    split at h
    · cases h
      rw [hkind]
      rfl
    · cases h

theorem kinds_parseFindings {values : List Reply} {findings : List AutomatedReasoningFinding}
    (h : parseFindings admits values = .ok findings) :
    findings.map (·.kind) = values.filterMap findingKind := by
  induction values generalizing findings with
  | nil =>
    cases h
    rfl
  | cons value values ih =>
    unfold parseFindings at h
    obtain ⟨parsed, hparsed, h⟩ := bind_eq_ok.mp h
    obtain ⟨rest, hrest, h⟩ := bind_eq_ok.mp h
    cases h
    rw [List.map_append, ih hrest, List.filterMap_cons, ← kind_parseFinding hparsed]
    cases parsed <;> rfl

theorem isOk_parseFindings {values : List Reply} :
    (parseFindings admits values).isOk = values.all (fun value => (parseFinding admits value).isOk) := by
  induction values with
  | nil => rfl
  | cons value values ih =>
    rw [List.all_cons, ← ih, parseFindings]
    cases parseFinding admits value with
    | error e => rfl
    | ok parsed => cases parseFindings admits values <;> rfl

theorem outcome_parseReview {inputHash : String} {response : ReplyFields}
    {review : AutomatedReasoningReview}
    (h : parseReview decimal admits inputHash (.obj response) = .ok review) :
    ∃ units, policyUnits decimal response = .ok units ∧ review.outcome =
      if units ≤ 0 then .notEvaluated
      else worstOutcome (((listedFindings response).filterMap findingKind).map FindingKind.outcome) := by
  unfold parseReview at h
  obtain ⟨units, hunits, h⟩ := bind_eq_ok.mp h
  obtain ⟨findings, hfindings, h⟩ := bind_eq_ok.mp h
  refine ⟨units, hunits, ?_⟩
  rw [← kinds_parseFindings hfindings, List.map_map]
  split at h
  next hfree =>
    cases h
    rw [if_pos hfree]
  next hcharged =>
    cases h
    rw [if_neg hcharged]
    rfl

theorem isOk_parseReview {inputHash : String} {response : ReplyFields} :
    (parseReview decimal admits inputHash (.obj response)).isOk =
      ((policyUnits decimal response).isOk &&
        (listedFindings response).all (fun value => (parseFinding admits value).isOk)) := by
  rw [← isOk_parseFindings]
  simp only [parseReview]
  cases policyUnits decimal response with
  | error e => rfl
  | ok units =>
    cases parseFindings admits (listedFindings response) with
    | error e => rfl
    | ok findings =>
      show Except.isOk (if units ≤ 0 then _ else _) = true
      split <;> rfl

end Reviews

/-! ## The order of the findings -/

/-- Two assessments that differ in the order of their findings -/
inductive AssessmentRearranged : Reply → Reply → Prop
  | same (assessment : Reply) : AssessmentRearranged assessment assessment
  | findings (before after policyBefore policyAfter : ReplyFields) {values values' : List Reply}
      (h : values.Perm values') :
      AssessmentRearranged
        (.obj (before ++ (key "automatedReasoningPolicy",
          .obj (policyBefore ++ (key "findings", .seq values) :: policyAfter)) :: after))
        (.obj (before ++ (key "automatedReasoningPolicy",
          .obj (policyBefore ++ (key "findings", .seq values') :: policyAfter)) :: after))

/-- Two responses that differ in the order of their assessments and of the findings in each -/
inductive Rearranged : ReplyFields → ReplyFields → Prop
  | assessments (before after : ReplyFields) {values middle values' : List Reply}
      (hfindings : List.Forall₂ AssessmentRearranged values middle) (h : middle.Perm values') :
      Rearranged (before ++ (key "assessments", .seq values) :: after)
        (before ++ (key "assessments", .seq values') :: after)

theorem field_append_of_ne {before after : ReplyFields} {changed : PyStr} {name : String}
    (h : key name ≠ changed) (value : Reply) :
    field (before ++ (changed, value) :: after) name = field (before ++ after) name := by
  unfold field
  rw [List.lookup_append, List.lookup_append, List.lookup_cons, beq_false_of_ne h]

theorem field_append_self (before after : ReplyFields) (name : String) (value : Reply) :
    field (before ++ (key name, value) :: after) name = (field before name).or (some value) := by
  unfold field
  rw [List.lookup_append, List.lookup_cons_self]

theorem AssessmentRearranged.perm {assessment assessment' : Reply}
    (h : AssessmentRearranged assessment assessment') :
    (assessmentFindings assessment).Perm (assessmentFindings assessment') := by
  cases h with
  | same => exact .refl _
  | findings before after policyBefore policyAfter h =>
    unfold assessmentFindings
    simp only [members, field_append_self]
    cases field before "automatedReasoningPolicy" with
    | some policy => exact .refl _
    | none =>
      simp only [Option.none_or, field_append_self]
      cases field policyBefore "findings" with
      | some values => exact .refl _
      | none => exact h

theorem Rearranged.listedFindings_perm {response response' : ReplyFields}
    (h : Rearranged response response') :
    (listedFindings response).Perm (listedFindings response') := by
  cases h with
  | assessments before after hfindings h =>
    unfold listedFindings
    simp only [field_append_self]
    cases field before "assessments" with
    | some values => exact .refl _
    | none =>
      refine List.Perm.trans ?_ (h.flatMap_right assessmentFindings)
      clear h
      simp only [Option.none_or, items]
      induction hfindings with
      | nil => exact .refl _
      | cons hfirst _ ih =>
        simp only [List.flatMap_cons]
        exact hfirst.perm.append ih

theorem Rearranged.policyUnits_eq {decimal : Char → Option Nat} {response response' : ReplyFields}
    (h : Rearranged response response') :
    policyUnits decimal response = policyUnits decimal response' := by
  have hne : key "usage" ≠ key "assessments" := by decide
  cases h with
  | assessments before after =>
    unfold policyUnits
    rw [field_append_of_ne hne, field_append_of_ne hne]

section Order

variable (decimal : Char → Option Nat) (admits : AutomatedReasoningFinding → Bool)

/-- The outcome of a review, if one is returned -/
def reviewOutcome (inputHash : String) (response : Reply) : Option ReviewOutcome :=
  (parseReview decimal admits inputHash response).toOption.map (·.outcome)

variable {decimal admits}

theorem reviewOutcome_rearranged {inputHash : String} {response response' : ReplyFields}
    (h : Rearranged response response') :
    reviewOutcome decimal admits inputHash (.obj response) =
      reviewOutcome decimal admits inputHash (.obj response') := by
  have hperm := h.listedFindings_perm
  have hok : (parseReview decimal admits inputHash (.obj response)).isOk =
      (parseReview decimal admits inputHash (.obj response')).isOk := by
    rw [isOk_parseReview, isOk_parseReview, h.policyUnits_eq, hperm.all_eq]
  unfold reviewOutcome
  cases hreview : parseReview decimal admits inputHash (.obj response) with
  | error e =>
    cases hreview' : parseReview decimal admits inputHash (.obj response') with
    | error e' => rfl
    | ok review' =>
      rw [hreview, hreview'] at hok
      cases hok
  | ok review =>
    cases hreview' : parseReview decimal admits inputHash (.obj response') with
    | error e' =>
      rw [hreview, hreview'] at hok
      cases hok
    | ok review' =>
      obtain ⟨units, hunits, houtcome⟩ := outcome_parseReview hreview
      obtain ⟨units', hunits', houtcome'⟩ := outcome_parseReview hreview'
      rw [← h.policyUnits_eq, hunits] at hunits'
      cases hunits'
      have hsame : review.outcome = review'.outcome := by
        rw [houtcome, houtcome']
        congr 1
        exact worstOutcome_perm ((hperm.filterMap findingKind).map FindingKind.outcome)
      exact congrArg some hsame

/-- A review is consistent exactly if policy units were charged, some finding is valid and no finding
    that is recognized is of another kind than valid or untranslated. Findings that are not recognized
    are skipped, and an untranslated one ranks below a valid one. The order of the assessments and of
    their findings does not matter. -/
theorem review_consistent_iff (inputHash : String) (response : ReplyFields) :
    (∀ review, parseReview decimal admits inputHash (.obj response) = .ok review →
        (review.outcome = .consistent ↔
          (∃ units, policyUnits decimal response = .ok units ∧ 0 < units) ∧
            (∃ value ∈ listedFindings response, findingKind value = some .valid) ∧
            ∀ value ∈ listedFindings response, ∀ kind, findingKind value = some kind →
              kind = .valid ∨ kind = .noTranslations)) ∧
      ∀ response', Rearranged response response' →
        reviewOutcome decimal admits inputHash (.obj response) =
          reviewOutcome decimal admits inputHash (.obj response') := by
  have hconsistent : ∀ kind : FindingKind, kind.outcome = .consistent ↔ kind = .valid := by
    intro kind
    cases kind <;> decide
  have hnotEvaluated : ∀ kind : FindingKind, kind.outcome = .notEvaluated ↔ kind = .noTranslations := by
    intro kind
    cases kind <;> decide
  refine ⟨?_, fun response' h => reviewOutcome_rearranged h⟩
  intro review h
  obtain ⟨units, hunits, houtcome⟩ := outcome_parseReview h
  have hcharged : (∃ n, policyUnits decimal response = .ok n ∧ 0 < n) ↔ 0 < units := by
    simp [hunits]
  rw [houtcome, hcharged]
  split
  next hfree =>
    simp only [reduceCtorEq, false_iff, not_and]
    intro hpositive
    exact absurd hpositive (Int.not_lt.mpr hfree)
  next hpositive =>
    rw [worstOutcome_eq_consistent]
    simp only [List.mem_map, List.mem_filterMap, hconsistent, forall_exists_index,
      and_imp, Int.not_le.mp hpositive, true_and]
    constructor
    · rintro ⟨⟨kind, ⟨value, hvalue, hkind⟩, rfl⟩, hall⟩
      refine ⟨⟨value, hvalue, hkind⟩, ?_⟩
      intro other hother kind' hkind'
      rcases hall _ kind' other hother hkind' rfl with h | h
      · exact .inl ((hconsistent kind').mp h)
      · exact .inr ((hnotEvaluated kind').mp h)
    · rintro ⟨⟨value, hvalue, hkind⟩, hall⟩
      refine ⟨⟨.valid, ⟨value, hvalue, hkind⟩, rfl⟩, ?_⟩
      rintro outcome kind other hother hkind' rfl
      rcases hall other hother kind hkind' with rfl | rfl
      · exact .inl rfl
      · exact .inr rfl

end Order

/-- The field checks of a finding -/
def fieldChecks (finding : AutomatedReasoningFinding) : Bool :=
  finding.ruleIds.all (fun id => id.all (fun c => decide (PyStr.Scalar c))) &&
    match finding.translationConfidence with
    | some (.finite x) => decide (0 ≤ x ∧ x ≤ 1)
    | some (.infinity _) => false
    | _ => true

/-- A response that charges one unit and has one assessment with these findings -/
def sampleReply (findings : List Reply) : ReplyFields :=
  [(key "usage", .obj [(key "automatedReasoningPolicyUnits", .leaf (.int 1))]),
    (key "assessments", .seq [.obj [(key "automatedReasoningPolicy",
      .obj [(key "findings", .seq findings)])]])]

/-- A finding of a kind, without detail -/
def sampleFinding (name : String) : Reply := .obj [(key name, .obj [])]

theorem review_consistent_iff_sample :
    (∃ review, parseReview (fun _ => none) fieldChecks "sha256:0"
        (.obj (sampleReply [sampleFinding "valid", sampleFinding "satisfiable"])) = .ok review ∧
        review.outcome ≠ .consistent) ∧
      reviewOutcome (fun _ => none) fieldChecks "sha256:0"
          (.obj (sampleReply [sampleFinding "valid", sampleFinding "satisfiable"])) =
        reviewOutcome (fun _ => none) fieldChecks "sha256:0"
          (.obj (sampleReply [sampleFinding "satisfiable", sampleFinding "valid"])) := by
  obtain ⟨hreview, horder⟩ := @review_consistent_iff (fun _ => none) fieldChecks "sha256:0"
    (sampleReply [sampleFinding "valid", sampleFinding "satisfiable"])
  have hok : (parseReview (fun _ => none) fieldChecks "sha256:0"
      (.obj (sampleReply [sampleFinding "valid", sampleFinding "satisfiable"]))).isOk = true := by
    rfl
  obtain ⟨review, hparsed⟩ := exists_of_isOk hok
  refine ⟨⟨review, hparsed, ?_⟩, ?_⟩
  · intro hconsistent
    obtain ⟨-, -, hall⟩ := (hreview review hparsed).mp hconsistent
    have hkind := hall (sampleFinding "satisfiable") (.tail _ (.head _)) .satisfiable rfl
    exact absurd hkind (by decide)
  · apply horder
    exact .assessments [_] [] (.cons (.findings [] [] [] [] (.swap _ _ [])) .nil) (.refl _)

/-- A finding of an unknown kind, and an untranslated one, beside a valid one are not seen in the
    outcome. -/
theorem consistent_beside_unrecognized :
    ∃ review, parseReview (fun _ => none) fieldChecks "sha256:0"
        (.obj (sampleReply [sampleFinding "valid", sampleFinding "unsupported",
          sampleFinding "noTranslations"])) = .ok review ∧ review.outcome = .consistent ∧
      ¬ ∀ value ∈ listedFindings (sampleReply [sampleFinding "valid", sampleFinding "unsupported",
          sampleFinding "noTranslations"]), findingKind value = some .valid := by
  refine ⟨_, rfl, rfl, ?_⟩
  intro h
  have hkind := h (sampleFinding "unsupported") (.tail _ (.head _))
  exact absurd hkind (by simp [show findingKind (sampleFinding "unsupported") = none from rfl])

end Integrations
