-- SUMMARY: The rule grammar: dotted fields, the operators of a condition, and that a verdict that was reached stays the same when a context tells more.
import SiraSeil.Domain.DecimalText
import SiraSeil.Domain.Enums
import SiraSeil.Domain.Publication

/-!
# Rules

`domain/rules.py` evaluates conditions over a context of Python objects. What it asks of an object is
`View`; equality, membership and the reading of dates are the interpreter's, and a comparison that
raises `InvalidOperation`, `TypeError` or `ValueError` has no result.
-/

namespace Domain

open Raising

/-- What the rules see of an object: `collection` is a sequence or a set, but no text and no bytes. -/
inductive View (V : Type)
  | none
  | bool (b : Bool)
  | int (n : Int)
  | decimal (d : PyNumber)
  | str (s : String)
  | date (day : Int)
  /-- A `datetime`, of which the rules read the date -/
  | datetime (day : Int)
  | mapping (fields : String → Option V)
  | collection (items : List V)
  | other

/-- Objects of one interpreter -/
structure Host (V : Type) where
  view : V → View V
  /-- `left == right` -/
  equal : V → V → Option Bool
  /-- `expected in actual` -/
  member : V → V → Option Bool
  /-- `date.fromisoformat` -/
  isoDate : String → Option Int
  unicode : Unicode

inductive RuleOperator
  | eq | neq | isIn | notIn | contains | containsAll | gte | lte | gt | lt | existsField
  | dateBefore | dateOnOrBefore | dateAfter | dateOnOrAfter
  deriving DecidableEq, Repr

/-! ## Fields -/

/-- `[a-z][a-z0-9_]*` -/
def isFieldSegment : List Char → Bool
  | [] => false
  | c :: cs => ('a' ≤ c && c ≤ 'z') &&
      cs.all (fun d => ('a' ≤ d && d ≤ 'z') || ('0' ≤ d && d ≤ '9') || d == '_')

/-- `_FIELD_PATH` -/
def isFieldPath (path : String) : Bool :=
  (segments path).all (fun segment => isFieldSegment segment.toList)

variable {V : Type}

/-- What an object holds at the end of the segments -/
def walk (host : Host V) : List String → V → Py (Option V)
  | [], current => .ok (some current)
  | segment :: rest, current =>
    if segment = "" ∨ startsWith segment "_" = true then
      .error (.domainValidation "private or empty field path segments are prohibited")
    else
      match host.view current with
      | .mapping fields =>
        match fields segment with
        | some value => walk host rest value
        | none => .ok none
      | _ => .ok none

/-- `resolve_field` -/
def resolveField (host : Host V) (context : V) (path : String) : Py (Option V) :=
  if isFieldPath path then walk host (segments path) context
  else .error (.domainValidation "rule field must be a valid dotted path")

/-! ## Comparisons -/

/-- The order of two decimals; a comparison with a NaN raises. -/
def PyNumber.compare : PyNumber → PyNumber → Option Ordering
  | .nan _, _ => none
  | _, .nan _ => none
  | .infinity a, .infinity b => some (Ord.compare (!a) (!b))
  | .infinity negative, .finite _ => some (if negative then .lt else .gt)
  | .finite _, .infinity negative => some (if negative then .gt else .lt)
  | .finite a, .finite b => some (if a.value < b.value then .lt else if b.value < a.value then .gt else .eq)

section Comparisons

variable (host : Host V)

/-- `_as_decimal` -/
def asDecimal (value : V) : Option PyNumber :=
  match host.view value with
  | .decimal d => some d
  | .int n => some (.finite { negative := decide (n < 0), coefficient := n.natAbs })
  | .str s => PyNumber.ofText host.unicode s
  | _ => none

/-- `_as_date` -/
def asDate (value : V) : Option Int :=
  match host.view value with
  | .datetime day => some day
  | .date day => some day
  | .str s => host.isoDate s
  | _ => none

/-- `_strict_equal` -/
def strictEqual (left right : V) : Option Bool :=
  match host.view left, host.view right with
  | .bool a, .bool b => some (a == b)
  | .bool _, _ => some false
  | _, .bool _ => some false
  | _, _ => host.equal left right

/-- The numeric operators, with what they say of an order -/
def compareDecimals (actual expected : V) (holds : Ordering → Bool) : Option Bool := do
  let left ← asDecimal host actual
  let right ← asDecimal host expected
  (left.compare right).map holds

/-- The date operators -/
def compareDates (actual expected : V) (holds : Int → Int → Bool) : Option Bool := do
  let left ← asDate host actual
  let right ← asDate host expected
  return holds left right

/-- The items of a collection; iterating anything else is refused. -/
def collectionItems (value : V) : Option (List V) :=
  match host.view value with
  | .collection items => some items
  | _ => none

/-- `_compare`. `EXISTS` does not reach it. -/
def compareValues (op : RuleOperator) (expected actual : V) : Option Bool :=
  match op with
  | .eq => strictEqual host actual expected
  | .neq => (strictEqual host actual expected).map (!·)
  | .isIn => do (← collectionItems host expected).anyM (strictEqual host actual)
  | .notIn => do return !(← (← collectionItems host expected).anyM (strictEqual host actual))
  | .contains => host.member expected actual
  | .containsAll => do
    let actualItems ← collectionItems host actual
    (← collectionItems host expected).allM (fun item => actualItems.anyM (strictEqual host item))
  | .gte => compareDecimals host actual expected (·.isGE)
  | .lte => compareDecimals host actual expected (·.isLE)
  | .gt => compareDecimals host actual expected (·.isGT)
  | .lt => compareDecimals host actual expected (·.isLT)
  | .dateBefore => compareDates host actual expected (fun a b => decide (a < b))
  | .dateOnOrBefore => compareDates host actual expected (fun a b => decide (a ≤ b))
  | .dateAfter => compareDates host actual expected (fun a b => decide (b < a))
  | .dateOnOrAfter => compareDates host actual expected (fun a b => decide (b ≤ a))
  | .existsField => none

end Comparisons

/-! ## Conditions -/

/-- `RuleCondition`, with what its constructor checks -/
structure RuleCondition (host : Host V) where
  field : String
  operator : RuleOperator
  value : V
  field_path : isFieldPath field = true
  value_collection : operator = .isIn ∨ operator = .notIn ∨ operator = .containsAll →
    (collectionItems host value).isSome = true
  value_bool : operator = .existsField → ∃ b, host.view value = .bool b

structure RuleEvaluation where
  value : TruthValue
  unresolvedFields : List String := []
  deriving DecidableEq, Repr

/-- The object at a field, unless it is missing or `None` -/
def present (host : Host V) (found : Option V) : Option V :=
  match found with
  | none => none
  | some actual =>
    match host.view actual with
    | .none => none
    | _ => some actual

section Evaluation

variable {host : Host V}

/-- `RuleCondition.evaluate` -/
def RuleCondition.evaluate (condition : RuleCondition host) (context : V) : Py RuleEvaluation := do
  let found ← resolveField host context condition.field
  if condition.operator = .existsField then
    let matched := match host.view condition.value with
      | .bool expected => (present host found).isSome == expected
      | _ => false
    return { value := if matched then .true else .false }
  else
    match present host found with
    | none => return { value := .unresolved, unresolvedFields := [condition.field] }
    | some actual =>
      match compareValues host condition.operator condition.value actual with
      | none => return { value := .unresolved, unresolvedFields := [condition.field] }
      | some matched => return { value := if matched then .true else .false }

inductive RuleMode
  | all
  | any
  deriving DecidableEq, Repr

/-- `RuleExpression` -/
structure RuleExpression (host : Host V) where
  conditions : List (RuleCondition host)
  mode : RuleMode := .all
  conditions_ne_nil : conditions ≠ []

/-- The verdict on the values of the conditions -/
def RuleMode.verdict : RuleMode → List TruthValue → TruthValue
  | .all, values =>
    if .false ∈ values then .false else if .unresolved ∈ values then .unresolved else .true
  | .any, values =>
    if .true ∈ values then .true else if .unresolved ∈ values then .unresolved else .false

/-- `RuleExpression.evaluate` -/
def RuleExpression.evaluate (expression : RuleExpression host) (context : V) : Py RuleEvaluation := do
  let results ← expression.conditions.mapM (fun condition => condition.evaluate context)
  let unresolved := Sorting.sortedSet (results.flatMap (·.unresolvedFields))
  let verdict := expression.mode.verdict (results.map (·.value))
  -- where every condition is decided, the fields are left out
  match expression.mode, verdict with
  | .all, .true => return { value := verdict }
  | .any, .false => return { value := verdict }
  | _, _ => return { value := verdict, unresolvedFields := unresolved }

/-! ## Larger contexts -/

/-- What a context holds at a field and is not `None` is the same in a larger one. -/
def Extends (host : Host V) (context context' : V) : Prop :=
  ∀ path, isFieldPath path = true → ∀ value, resolveField host context path = .ok (some value) →
    present host (some value) = some value → resolveField host context' path = .ok (some value)

theorem eq_some_of_present {found : Option V} {actual : V} (h : present host found = some actual) :
    found = some actual := by
  cases found with
  | none => cases h
  | some value =>
    simp only [present] at h
    split at h
    · cases h
    · exact h

theorem isFieldSegment_public {segment : String} (h : isFieldSegment segment.toList = true) :
    ¬ (segment = "" ∨ startsWith segment "_" = true) := by
  rintro (rfl | hprivate)
  · simp [isFieldSegment] at h
  · unfold startsWith at hprivate
    cases hchars : segment.toList with
    | nil =>
      rw [hchars] at h
      cases h
    | cons c cs =>
      rw [hchars] at h hprivate
      have htext : "_".toList = ['_'] := by decide
      have hunderscore : '_' = c := by
        rw [htext, List.isPrefixOf_cons_cons, Bool.and_eq_true_iff] at hprivate
        exact beq_iff_eq.mp hprivate.1
      subst hunderscore
      rw [isFieldSegment, Bool.and_eq_true_iff] at h
      exact absurd h.1 (by decide)

theorem exists_walk {path : List String}
    (h : ∀ segment ∈ path, isFieldSegment segment.toList = true) (current : V) :
    ∃ found, walk host path current = .ok found := by
  induction path generalizing current with
  | nil => exact ⟨some current, rfl⟩
  | cons segment rest ih =>
    obtain ⟨hsegment, hrest⟩ := List.forall_mem_cons.mp h
    unfold walk
    rw [if_neg (isFieldSegment_public hsegment)]
    split
    · split
      next value _ => exact ih hrest value
      · exact ⟨none, rfl⟩
    · exact ⟨none, rfl⟩

theorem exists_resolveField {path : String} (h : isFieldPath path = true) (context : V) :
    ∃ found, resolveField host context path = .ok found := by
  unfold resolveField
  rw [if_pos h]
  exact exists_walk (fun segment hsegment => List.all_eq_true.mp h segment hsegment) context

/-- What a condition says of the object that its field holds -/
def RuleCondition.judge (condition : RuleCondition host) (found : Option V) : RuleEvaluation :=
  match (present host found).bind (compareValues host condition.operator condition.value) with
  | none => { value := .unresolved, unresolvedFields := [condition.field] }
  | some matched => { value := if matched then .true else .false }

variable {context : V} {expression : RuleExpression host}

theorem RuleCondition.evaluate_eq {condition : RuleCondition host}
    (hoperator : condition.operator ≠ .existsField) {found : Option V}
    (hfound : resolveField host context condition.field = .ok found) :
    condition.evaluate context = .ok (condition.judge found) := by
  unfold RuleCondition.evaluate RuleCondition.judge
  rw [hfound, ok_bind]
  simp only [hoperator, if_false]
  cases present host found with
  | none => rfl
  | some actual =>
    simp only [Option.bind_some]
    cases compareValues host condition.operator condition.value actual <;> rfl

/-- A value that was decided stays the same; an unresolved one may become any. -/
def Kept (value value' : TruthValue) : Prop :=
  value = .unresolved ∨ value' = value

/-- A condition is evaluated in every context, and what it decides it decides in a larger one. -/
theorem RuleCondition.evaluate_extends {condition : RuleCondition host}
    (hoperator : condition.operator ≠ .existsField) {context' : V}
    (h : Extends host context context') :
    ∃ e e', condition.evaluate context = .ok e ∧ condition.evaluate context' = .ok e' ∧
      Kept e.value e'.value := by
  obtain ⟨found, hfound⟩ := @exists_resolveField V host condition.field condition.field_path context
  obtain ⟨found', hfound'⟩ := @exists_resolveField V host condition.field condition.field_path context'
  refine ⟨_, _, condition.evaluate_eq hoperator hfound, condition.evaluate_eq hoperator hfound', ?_⟩
  cases hpresent : present host found with
  | none =>
    left
    unfold RuleCondition.judge
    rw [hpresent]
    rfl
  | some actual =>
    right
    have hactual := eq_some_of_present hpresent
    rw [hactual] at hpresent hfound
    have hsame := h condition.field condition.field_path actual hfound hpresent
    cases hfound'.symm.trans hsame
    rw [hactual]

theorem RuleMode.verdict_kept (mode : RuleMode) {values values' : List TruthValue}
    (h : List.Forall₂ Kept values values') : Kept (mode.verdict values) (mode.verdict values') := by
  -- a decided value is among the later ones, and a later one was there or unresolved before
  have hforward : ∀ v ∈ values, v ≠ .unresolved → v ∈ values' := by
    induction h with
    | nil => simp
    | @cons v v' values values' hkept _ ih =>
      intro w hw hdecided
      rcases List.mem_cons.mp hw with rfl | hw
      · rcases hkept with hunresolved | rfl
        · exact absurd hunresolved hdecided
        · exact List.mem_cons_self
      · exact List.mem_cons_of_mem v' (ih w hw hdecided)
  have hback : .unresolved ∉ values → values' = values := by
    clear hforward
    induction h with
    | nil => exact fun _ => rfl
    | @cons v v' values values' hkept _ ih =>
      intro hdecided
      rw [List.mem_cons, not_or] at hdecided
      rcases hkept with hunresolved | rfl
      · exact absurd hunresolved.symm hdecided.1
      · rw [ih hdecided.2]
  cases mode with
  | all =>
    unfold RuleMode.verdict Kept
    by_cases hfalse : TruthValue.false ∈ values
    · simp [hfalse, hforward _ hfalse (by decide)]
    · by_cases hunresolved : TruthValue.unresolved ∈ values
      · simp [hfalse, hunresolved]
      · simp [hback hunresolved]
  | any =>
    unfold RuleMode.verdict Kept
    by_cases htrue : TruthValue.true ∈ values
    · simp [htrue, hforward _ htrue (by decide)]
    · by_cases hunresolved : TruthValue.unresolved ∈ values
      · simp [htrue, hunresolved]
      · simp [hback hunresolved]

theorem RuleExpression.evaluate_value {results : List RuleEvaluation}
    (h : expression.conditions.mapM (fun condition => condition.evaluate context) = .ok results) :
    ∃ e, expression.evaluate context = .ok e ∧
      e.value = expression.mode.verdict (results.map (·.value)) := by
  unfold RuleExpression.evaluate
  rw [h, ok_bind]
  simp only
  split <;> exact ⟨_, rfl, rfl⟩

/-- No condition of an expression asks whether a field exists. -/
def RuleExpression.NoExists (expression : RuleExpression host) : Prop :=
  ∀ condition ∈ expression.conditions, condition.operator ≠ .existsField

/-- An expression is evaluated in every context, and what it decides it decides in a larger one. -/
theorem RuleExpression.evaluate_extends (hexpression : expression.NoExists) {context' : V}
    (h : Extends host context context') :
    ∃ e e', expression.evaluate context = .ok e ∧ expression.evaluate context' = .ok e' ∧
      Kept e.value e'.value := by
  have hresults : ∀ conditions : List (RuleCondition host),
      (∀ condition ∈ conditions, condition.operator ≠ .existsField) → ∃ results results',
        conditions.mapM (fun condition => condition.evaluate context) = .ok results ∧
          conditions.mapM (fun condition => condition.evaluate context') = .ok results' ∧
          List.Forall₂ Kept (results.map (·.value)) (results'.map (·.value)) := by
    intro conditions hconditions
    induction conditions with
    | nil => exact ⟨[], [], rfl, rfl, .nil⟩
    | cons condition conditions ih =>
      obtain ⟨hcondition, hrest⟩ := List.forall_mem_cons.mp hconditions
      obtain ⟨e, e', he, he', hkept⟩ := condition.evaluate_extends hcondition h
      obtain ⟨results, results', hresults, hresults', hall⟩ := ih hrest
      refine ⟨e :: results, e' :: results', ?_, ?_, .cons hkept hall⟩
      · rw [List.mapM_cons, he, hresults]
        rfl
      · rw [List.mapM_cons, he', hresults']
        rfl
  obtain ⟨results, results', hok, hok', hall⟩ := hresults expression.conditions hexpression
  obtain ⟨e, he, hvalue⟩ := RuleExpression.evaluate_value hok
  obtain ⟨e', he', hvalue'⟩ := RuleExpression.evaluate_value hok'
  refine ⟨e, e', he, he', ?_⟩
  rw [hvalue, hvalue']
  exact expression.mode.verdict_kept hall

theorem RuleExpression.value_cases {e : RuleEvaluation} (h : expression.evaluate context = .ok e) :
    e.value = .true ∨ e.value = .false ∨ e.value = .unresolved := by
  obtain ⟨results, hresults, -⟩ := bind_eq_ok.mp h
  obtain ⟨e', he', hvalue⟩ := RuleExpression.evaluate_value hresults
  cases h.symm.trans he'
  rw [hvalue]
  cases expression.mode with
  | all =>
    simp only [RuleMode.verdict]
    split_ifs <;> simp
  | any =>
    simp only [RuleMode.verdict]
    split_ifs <;> simp

end Evaluation

end Domain
