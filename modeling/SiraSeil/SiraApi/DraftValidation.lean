-- SUMMARY: The gaps of a draft revision: which of them depend on the order of the rows, and when the validation is exact and free of that order.
import SiraSeil.SiraApi.SellerService

/-!
# Draft validation

`_validate_revision` looks at the last retention claim only, and keeps one field for each piece of
evidence, that of the last row that cites it. So its gaps depend on the order of the rows.
-/

namespace SiraApi

open Domain Persistence Raising

/-! ## Keys of gaps -/

/-- What a gap is known by -/
def gapKey (gap : SellerValidationGap) : String × String :=
  (gap.id, gap.field)

/-- The id of a gap -/
def gapId (field suffix : String) : String :=
  "gap_" ++ String.ofList (field.toList.map (fun c => if c = '.' then '_' else c)) ++ "_" ++ suffix

@[simp] theorem gapKey_sellerGap (productId field message suffix : String) :
    gapKey (sellerGap productId field message suffix) = (gapId field suffix, field) := rfl

/-- The fields that a gap of an approved revision can have -/
def gapFields : List String :=
  allowedClaimFields ++ allowedFitFields ++ allowedAntiFitFields ++ ["fit_rules", "anti_fit_rules"]

theorem not_dot_of_mem_gapFields : ∀ field ∈ gapFields, '.' ∉ field.toList := by
  decide +kernel

theorem toList_gapId {field : String} (h : field ∈ gapFields) (suffix : String) :
    (gapId field suffix).toList = "gap_".toList ++ field.toList ++ "_".toList ++ suffix.toList := by
  have hsame : field.toList.map (fun c => if c = '.' then '_' else c) = field.toList := by
    have hdots : ∀ c ∈ field.toList, (if c = '.' then '_' else c) = id c := by
      intro c hc
      have hdot : c ≠ '.' := fun heq => not_dot_of_mem_gapFields field h (heq ▸ hc)
      exact if_neg hdot
    rw [List.map_congr_left hdots, List.map_id]
  simp only [gapId, String.toList_append, hsame, String.toList_ofList]

theorem getLast?_append_suffix (text : List Char) :
    (text ++ "required".toList).getLast? = some 'd' ∧ (text ++ "stale".toList).getLast? = some 'e' := by
  have hrequired : "required".toList.getLast? = some 'd' := by decide
  have hstale : "stale".toList.getLast? = some 'e' := by decide
  rw [List.getLast?_append, List.getLast?_append, hrequired, hstale]
  exact ⟨rfl, rfl⟩

theorem gapId_injective {field field' suffix suffix' : String} (h : field ∈ gapFields)
    (h' : field' ∈ gapFields) (hsuffix : suffix ∈ ["required", "stale"])
    (hsuffix' : suffix' ∈ ["required", "stale"]) (heq : gapId field suffix = gapId field' suffix') :
    field = field' := by
  have hlists := congrArg String.toList heq
  rw [toList_gapId h, toList_gapId h'] at hlists
  have hlast := congrArg List.getLast? hlists
  have hsame : suffix = suffix' := by
    simp only [List.mem_cons, List.not_mem_nil, or_false] at hsuffix hsuffix'
    rcases hsuffix with rfl | rfl <;> rcases hsuffix' with rfl | rfl
    · rfl
    · rw [(getLast?_append_suffix _).1, (getLast?_append_suffix _).2] at hlast
      cases hlast
    · rw [(getLast?_append_suffix _).1, (getLast?_append_suffix _).2] at hlast
      cases hlast
    · rfl
  subst hsame
  rw [List.append_assoc, List.append_assoc, List.append_assoc, List.append_assoc] at hlists
  have hfields := List.append_cancel_right (List.append_cancel_left hlists)
  exact String.toList_inj.mp hfields

/-! ## Gaps -/

section Gaps

variable (content : SellerContent) (evidence : List SellerEvidenceAttachment) (now : Int)

/-- Why a piece of evidence cannot be cited, as the suffix of its gap -/
def evidenceDefect (id : String) : Option String :=
  match evidence.find? (·.id = id) with
  | none => some "required"
  | some attachment =>
    if attachment.verificationState = .rejected then some "required"
    else if attachment.observedAt.any (fun observed => observed < now - staleAfter) then some "stale"
    else none

/-- The rows of a list that cite a piece of evidence -/
def citingOf (id : String) (rows : List SellerEvidenceClaim) : List SellerEvidenceClaim :=
  rows.filter (fun row => id ∈ row.evidenceIds)

/-- The rows that cite a piece of evidence in the last of the three lists that cites it -/
def citing (id : String) : List SellerEvidenceClaim :=
  if citingOf id content.antiFitRules ≠ [] then citingOf id content.antiFitRules
  else if citingOf id content.fitRules ≠ [] then citingOf id content.fitRules
  else citingOf id content.claims

/-- The retention claims -/
def retentionClaims : List SellerEvidenceClaim :=
  content.claims.filter (·.field = "data_retention_days")

/-- The gaps of values and rules -/
inductive PlainGap : String → String → Prop
  | required {field : String} (h : field ∈ requiredClaims)
      (hblank : ∀ row ∈ content.claims, row.field = field → isBlank row.value = true) :
      PlainGap field "required"
  | fit (h : content.fitRules = []) : PlainGap "fit_rules" "required"
  | antiFit (h : content.antiFitRules = []) : PlainGap "anti_fit_rules" "required"
  | conflict {row row' : SellerEvidenceClaim} (hrow : row ∈ content.claims) (hrow' : row' ∈ content.claims)
      (hfield : row.field = row'.field) (hvalue : row.value ≠ row'.value) : PlainGap row.field "required"

/-- The gaps of a revision, with its rows in their order -/
inductive GapOf : String → String → Prop
  | plain {field suffix : String} (h : PlainGap content field suffix) : GapOf field suffix
  | retention {row : SellerEvidenceClaim} (h : (retentionClaims content).getLast? = some row)
      (hids : row.evidenceIds = []) : GapOf "data_retention_days" "required"
  | evidence {id suffix : String} {row : SellerEvidenceClaim}
      (h : (citing content id).getLast? = some row)
      (hdefect : evidenceDefect evidence now id = some suffix) : GapOf row.field suffix

/-- The gaps that depend on which row is the last -/
inductive OrderGap : String → String → Prop
  | retention {row : SellerEvidenceClaim} (h : row ∈ retentionClaims content)
      (hids : row.evidenceIds = []) : OrderGap "data_retention_days" "required"
  | evidence {id suffix : String} {row : SellerEvidenceClaim} (h : row ∈ citing content id)
      (hdefect : evidenceDefect evidence now id = some suffix) : OrderGap row.field suffix

/-- The gaps that are there whichever row is the last -/
inductive AlwaysGap : String → String → Prop
  | plain {field suffix : String} (h : PlainGap content field suffix) : AlwaysGap field suffix
  | retention (h : retentionClaims content ≠ [])
      (hids : ∀ row ∈ retentionClaims content, row.evidenceIds = []) :
      AlwaysGap "data_retention_days" "required"
  | evidence {id field suffix : String} (h : citing content id ≠ [])
      (hfield : ∀ row ∈ citing content id, row.field = field)
      (hdefect : evidenceDefect evidence now id = some suffix) : AlwaysGap field suffix

end Gaps

section Gaps

variable {content : SellerContent} {evidence : List SellerEvidenceAttachment} {now : Int}

theorem evidenceGap_key (productId id field : String) :
    (evidenceGap productId evidence now id field).map gapKey =
      (evidenceDefect evidence now id).map (fun suffix => (gapId field suffix, field)) := by
  unfold evidenceGap evidenceDefect
  cases evidence.find? (·.id = id) with
  | none => rfl
  | some attachment =>
    dsimp only
    split
    · rfl
    split
    · rfl
    · rfl

/-- `referenced` gives a piece of evidence the field of the last row that cites it. -/
theorem get?_referencedOf (rows : List SellerEvidenceClaim) (id : String) :
    (Dict.ofList (rows.flatMap (fun row => row.evidenceIds.map (fun id => (id, row.field))))).get? id =
      (citingOf id rows).getLast?.map (·.field) := by
  induction rows using List.reverseRecOn with
  | nil => rfl
  | append_singleton rows row ih =>
    have hciting : citingOf id (rows ++ [row]) = citingOf id rows ++ citingOf id [row] :=
      List.filter_append ..
    rw [Dict.get?_ofList] at ih ⊢
    rw [List.flatMap_append, List.flatMap_singleton, List.reverse_append, List.lookup_append, ih, hciting,
      List.getLast?_append]
    by_cases hid : id ∈ row.evidenceIds
    · have hlookup : (row.evidenceIds.map (fun id => (id, row.field))).reverse.lookup id =
          some row.field := by
        rw [← List.map_reverse]
        exact List.lookup_graph _ (List.mem_reverse.mpr hid)
      have hlast : citingOf id [row] = [row] := by simp [citingOf, hid]
      rw [hlookup, hlast]
      rfl
    · have hlookup : (row.evidenceIds.map (fun id => (id, row.field))).reverse.lookup id = none := by
        rw [List.lookup_eq_none_iff]
        intro p hp
        obtain ⟨id', hid', rfl⟩ := List.mem_map.mp (List.mem_reverse.mp hp)
        rw [bne_iff_ne]
        rintro rfl
        exact hid hid'
      have hlast : citingOf id [row] = [] := by simp [citingOf, hid]
      rw [hlookup, hlast]
      rfl

theorem getLast?_citing (id : String) :
    (citing content id).getLast? = (citingOf id content.rows).getLast? := by
  have hrows : citingOf id content.rows =
      citingOf id content.claims ++ citingOf id content.fitRules ++ citingOf id content.antiFitRules := by
    simp only [citingOf, SellerContent.rows, List.filter_append]
  rw [hrows, List.getLast?_append, List.getLast?_append, citing]
  split
  next hanti => rw [List.getLast?_eq_some_getLast hanti, Option.some_or]
  next hanti =>
    rw [not_not.mp hanti, List.getLast?_nil, Option.none_or]
    split
    next hfit => rw [List.getLast?_eq_some_getLast hfit, Option.some_or]
    next hfit => rw [not_not.mp hfit, List.getLast?_nil, Option.none_or]

/-! ## The validation -/

theorem one_lt_length_eraseDups {hashes : List String} :
    1 < hashes.eraseDups.length ↔ ∃ hash ∈ hashes, ∃ hash' ∈ hashes, hash ≠ hash' := by
  cases hashes with
  | nil => simp
  | cons first hashes =>
    rw [List.eraseDups_cons, List.length_cons, Nat.lt_add_left_iff_pos, List.length_pos_iff_exists_mem]
    simp only [List.mem_eraseDups, List.mem_filter, Bool.not_eq_true', beq_eq_false_iff_ne]
    constructor
    · rintro ⟨hash, hmem, hne⟩
      exact ⟨hash, List.mem_cons_of_mem _ hmem, first, List.mem_cons_self, hne⟩
    · rintro ⟨hash, hmem, hash', hmem', hne⟩
      by_contra hnone
      have hsame : ∀ h ∈ first :: hashes, h = first := by
        intro h hh
        rcases List.mem_cons.mp hh with rfl | hh
        · rfl
        · by_contra hdiffers
          exact hnone ⟨h, hh, hdiffers⟩
      exact hne ((hsame hash hmem).trans (hsame hash' hmem').symm)

/-- What the hashes of the values have to be: those of different values of a field differ. -/
structure HashedClaims (rt : Runtime) (claims : List SellerEvidenceClaim) : Prop where
  canonical : ∀ row ∈ claims, row.value.Canonical
  separate : ∀ row ∈ claims, ∀ row' ∈ claims, row.field = row'.field →
    rt.hexdigest (.obj [("value", row.value)]) = rt.hexdigest (.obj [("value", row'.value)]) →
      row.value = row'.value

variable {rt : Runtime}

theorem exists_conflictingFields {claims : List SellerEvidenceClaim} (h : HashedClaims rt claims) :
    ∃ conflicts, conflictingFields rt claims = .ok conflicts ∧ ∀ field, field ∈ conflicts ↔
      ∃ row ∈ claims, ∃ row' ∈ claims, row.field = field ∧ row'.field = field ∧ row.value ≠ row'.value := by
  let hash := fun row : SellerEvidenceClaim => "sha256:" ++ rt.hexdigest (.obj [("value", row.value)])
  let differs := fun field =>
    decide (1 < ((claims.filter (·.field = field)).map hash).eraseDups.length)
  refine ⟨(claims.map (·.field)).eraseDups.filter differs, ?_, fun field => ?_⟩
  · apply filterM_eq_ok
    intro field _
    have hhashes : (claims.filter (·.field = field)).mapM (fun row =>
        contentDigest rt (.obj [("value", row.value)])) =
          .ok ((claims.filter (·.field = field)).map hash) := by
      rw [mapM_eq_ok, List.forall₂_map_right_iff, List.forall₂_same]
      intro row hrow
      have hvalue := h.canonical row (List.mem_of_mem_filter hrow)
      exact contentDigest_eq_ok.mpr ⟨by simpa using hvalue, rfl⟩
    rw [hhashes, ok_bind]
    rfl
  · simp only [List.mem_filter, List.mem_eraseDups, differs, decide_eq_true_eq, one_lt_length_eraseDups,
      List.mem_map]
    constructor
    · rintro ⟨-, _, ⟨row, ⟨hrow, hfield⟩, rfl⟩, _, ⟨row', ⟨hrow', hfield'⟩, rfl⟩, hne⟩
      refine ⟨row, hrow, row', hrow', hfield, hfield', fun hvalue => hne ?_⟩
      exact congrArg (fun value => "sha256:" ++ rt.hexdigest (.obj [("value", value)])) hvalue
    · rintro ⟨row, hrow, row', hrow', hfield, hfield', hne⟩
      refine ⟨⟨row, hrow, hfield⟩, _, ⟨row, ⟨hrow, hfield⟩, rfl⟩, _, ⟨row', ⟨hrow', hfield'⟩, rfl⟩, ?_⟩
      intro hhash
      exact hne (h.separate row hrow row' hrow' (hfield.trans hfield'.symm) (String.append_right_inj _ |>.mp hhash))

variable {productId : String} {key : String × String}

theorem mem_requiredGaps :
    key ∈ (requiredGaps productId content.claims).map gapKey ↔ ∃ field ∈ requiredClaims,
      (∀ row ∈ content.claims, row.field = field → isBlank row.value = true) ∧
        key = (gapId field "required", field) := by
  have hblank : ∀ field, (content.claims.filter (·.field = field)).all (fun row => isBlank row.value) = true ↔
      ∀ row ∈ content.claims, row.field = field → isBlank row.value = true := by
    intro field
    simp [imp_iff_not_or]
  simp only [requiredGaps, List.map_map, List.mem_map, List.mem_filter, hblank, Function.comp_apply,
    gapKey_sellerGap, and_assoc]
  constructor
  · rintro ⟨field, hfield, hall, rfl⟩
    exact ⟨field, hfield, hall, rfl⟩
  · rintro ⟨field, hfield, hall, rfl⟩
    exact ⟨field, hfield, hall, rfl⟩

theorem mem_ruleGaps :
    key ∈ (ruleGaps productId content).map gapKey ↔
      content.fitRules = [] ∧ key = (gapId "fit_rules" "required", "fit_rules") ∨
      content.antiFitRules = [] ∧ key = (gapId "anti_fit_rules" "required", "anti_fit_rules") := by
  unfold ruleGaps
  rw [List.map_append, List.mem_append]
  cases content.fitRules <;> cases content.antiFitRules <;> simp

theorem mem_retentionGaps :
    key ∈ (retentionGaps productId content.claims).map gapKey ↔
      ∃ row, (retentionClaims content).getLast? = some row ∧ row.evidenceIds = [] ∧
        key = (gapId "data_retention_days" "required", "data_retention_days") := by
  unfold retentionGaps retentionClaims
  cases (content.claims.filter (·.field = "data_retention_days")).getLast? with
  | none => simp
  | some row =>
    cases hids : row.evidenceIds with
    | nil => simp [hids]
    | cons id ids => simp [hids]

theorem mem_evidenceGaps :
    key ∈ ((referenced content).items.filterMap
        (fun item => evidenceGap productId evidence now item.1 item.2)).map gapKey ↔
      ∃ id row suffix, (citing content id).getLast? = some row ∧
        evidenceDefect evidence now id = some suffix ∧ key = (gapId row.field suffix, row.field) := by
  have hitem : ∀ id field, (id, field) ∈ (referenced content).items ↔
      ∃ row, (citing content id).getLast? = some row ∧ row.field = field := by
    intro id field
    rw [← Dict.get?_eq_some_iff, referenced, get?_referencedOf, ← getLast?_citing, Option.map_eq_some_iff]
  rw [List.map_filterMap, List.mem_filterMap]
  simp only [evidenceGap_key, Option.map_eq_some_iff, Prod.exists, hitem]
  constructor
  · rintro ⟨id, _, ⟨row, hrow, rfl⟩, suffix, hdefect, rfl⟩
    exact ⟨id, row, suffix, hrow, hdefect, rfl⟩
  · rintro ⟨id, row, suffix, hrow, hdefect, rfl⟩
    exact ⟨id, row.field, ⟨row, hrow, rfl⟩, suffix, hdefect, rfl⟩

theorem suffix_of_evidenceDefect {id suffix : String} (h : evidenceDefect evidence now id = some suffix) :
    suffix ∈ ["required", "stale"] := by
  unfold evidenceDefect at h
  split at h
  next =>
    cases h
    decide
  next =>
    split at h
    · cases h
      decide
    split at h
    · cases h
      decide
    · cases h

theorem mem_gapFields (h : validatePublicationFields content = .ok ()) :
    ∀ row ∈ content.rows, row.field ∈ gapFields := by
  unfold validatePublicationFields at h
  split at h
  next hall =>
    obtain ⟨hclaims, hfit, hanti⟩ := hall
    intro row hrow
    rw [SellerContent.rows, List.mem_append, List.mem_append] at hrow
    unfold gapFields
    rcases hrow with (hrow | hrow) | hrow
    · have hfield := List.all_eq_true.mp hclaims row hrow
      simp [of_decide_eq_true hfield]
    · have hfield := List.all_eq_true.mp hfit row hrow
      simp [of_decide_eq_true hfield]
    · have hfield := List.all_eq_true.mp hanti row hrow
      simp [of_decide_eq_true hfield]
  next => cases h

theorem mem_rows_of_mem_citing {id : String} {row : SellerEvidenceClaim} (h : row ∈ citing content id) :
    row ∈ content.rows := by
  have hlist : ∀ rows, row ∈ citingOf id rows → row ∈ rows := fun rows hrow => List.mem_of_mem_filter hrow
  rw [SellerContent.rows, List.mem_append, List.mem_append]
  unfold citing at h
  split at h
  · exact .inr (hlist _ h)
  split at h
  · exact .inl (.inr (hlist _ h))
  · exact .inl (.inl (hlist _ h))

theorem retention_mem_gapFields : "data_retention_days" ∈ gapFields := by
  simp [gapFields, allowedClaimFields]

theorem GapOf.known (hfields : ∀ row ∈ content.rows, row.field ∈ gapFields) {field suffix : String}
    (h : GapOf content evidence now field suffix) :
    field ∈ gapFields ∧ suffix ∈ ["required", "stale"] := by
  cases h with
  | plain h =>
    refine ⟨?_, ?_⟩
    · cases h with
      | required hrequired _ =>
        have hsub : ∀ field ∈ requiredClaims, field ∈ gapFields := by
          simp [requiredClaims, gapFields, allowedClaimFields]
        exact hsub _ hrequired
      | fit => simp [gapFields]
      | antiFit => simp [gapFields]
      | conflict hrow =>
        apply hfields
        rw [SellerContent.rows, List.append_assoc]
        exact List.mem_append_left _ hrow
    · cases h <;> decide
  | retention => exact ⟨retention_mem_gapFields, by decide⟩
  | evidence hlast hdefect =>
    exact ⟨hfields _ (mem_rows_of_mem_citing (List.mem_of_getLast? hlast)), suffix_of_evidenceDefect hdefect⟩

theorem mem_ordered {gaps : List SellerValidationGap}
    (hinj : ∀ gap ∈ gaps, ∀ gap' ∈ gaps, gap.id = gap'.id → gap.field = gap'.field) :
    key ∈ ((Dict.ofList (gaps.map (fun gap => (gap.id, gap)))).sortedItems.map Prod.snd).map gapKey ↔
      key ∈ gaps.map gapKey := by
  have hitem : ∀ id gap, (id, gap) ∈ (Dict.ofList (gaps.map (fun gap => (gap.id, gap)))).items →
      gap ∈ gaps ∧ gap.id = id := by
    intro id gap hmem
    obtain ⟨gap', hgap', heq⟩ := List.mem_map.mp (Dict.mem_of_get?_ofList (Dict.get?_eq_some_iff.mpr hmem))
    cases heq
    exact ⟨hgap', rfl⟩
  simp only [List.map_map, List.mem_map, Dict.sortedItems, Sorting.mem_sortedBy, Function.comp_apply,
    Prod.exists]
  constructor
  · rintro ⟨id, gap, hmem, rfl⟩
    exact ⟨gap, (hitem id gap hmem).1, rfl⟩
  · rintro ⟨gap, hgap, rfl⟩
    have hkey : gap.id ∈ (Dict.ofList (gaps.map (fun gap => (gap.id, gap)))).items.map Prod.fst := by
      rw [Dict.mem_keys_ofList, List.map_map]
      exact List.mem_map_of_mem hgap
    obtain ⟨⟨id, gap'⟩, hitems, hid⟩ := List.mem_map.mp hkey
    obtain ⟨hgap', hid'⟩ := hitem id gap' hitems
    have hsame : gap'.id = gap.id := hid'.trans hid
    exact ⟨id, gap', hitems, Prod.ext hsame (hinj gap' hgap' gap hgap hsame)⟩

/-- All gaps that are found, before those with one id become one -/
def foundGaps (productId : String) (content : SellerContent) (evidence : List SellerEvidenceAttachment)
    (now : Int) (conflicts : List String) : List SellerValidationGap :=
  requiredGaps productId content.claims ++ ruleGaps productId content ++
    conflicts.map (fun field =>
      sellerGap productId field "Resolve conflicting values for this field.") ++
    retentionGaps productId content.claims ++
    (referenced content).items.filterMap (fun item => evidenceGap productId evidence now item.1 item.2)

theorem mem_foundGaps {conflicts : List String}
    (hconflicts : ∀ field, field ∈ conflicts ↔ ∃ row ∈ content.claims, ∃ row' ∈ content.claims,
      row.field = field ∧ row'.field = field ∧ row.value ≠ row'.value) :
    key ∈ (foundGaps productId content evidence now conflicts).map gapKey ↔
      ∃ field suffix, GapOf content evidence now field suffix ∧ key = (gapId field suffix, field) := by
  have hconflict : key ∈ (conflicts.map (fun field =>
      sellerGap productId field "Resolve conflicting values for this field.")).map gapKey ↔
        ∃ field ∈ conflicts, key = (gapId field "required", field) := by
    simp only [List.map_map, List.mem_map, Function.comp_apply, gapKey_sellerGap, eq_comm]
  simp only [foundGaps, List.map_append, List.mem_append, mem_requiredGaps, mem_ruleGaps, hconflict,
    mem_retentionGaps, mem_evidenceGaps, hconflicts]
  constructor
  · rintro ((((⟨field, hfield, hblank, rfl⟩ | ⟨h, rfl⟩ | ⟨h, rfl⟩) |
      ⟨_, ⟨row, hrow, row', hrow', rfl, hfield, hvalue⟩, rfl⟩) | ⟨row, hrow, hids, rfl⟩) |
      ⟨id, row, suffix, hrow, hdefect, rfl⟩)
    · exact ⟨_, _, .plain (.required hfield hblank), rfl⟩
    · exact ⟨_, _, .plain (.fit h), rfl⟩
    · exact ⟨_, _, .plain (.antiFit h), rfl⟩
    · exact ⟨_, _, .plain (.conflict hrow hrow' hfield.symm hvalue), rfl⟩
    · exact ⟨_, _, .retention hrow hids, rfl⟩
    · exact ⟨_, _, .evidence hrow hdefect, rfl⟩
  · rintro ⟨field, suffix, h, rfl⟩
    cases h with
    | plain h =>
      cases h with
      | required hfield hblank => exact .inl (.inl (.inl (.inl ⟨_, hfield, hblank, rfl⟩)))
      | fit h => exact .inl (.inl (.inl (.inr (.inl ⟨h, rfl⟩))))
      | antiFit h => exact .inl (.inl (.inl (.inr (.inr ⟨h, rfl⟩))))
      | conflict hrow hrow' hfield hvalue =>
        exact .inl (.inl (.inr ⟨_, ⟨_, hrow, _, hrow', rfl, hfield.symm, hvalue⟩, rfl⟩))
    | retention hrow hids => exact .inl (.inr ⟨_, hrow, hids, rfl⟩)
    | evidence hrow hdefect => exact .inr ⟨_, _, _, hrow, hdefect, rfl⟩

theorem exists_validateRevision (productId : String) (evidence : List SellerEvidenceAttachment) (now : Int)
    (hfields : validatePublicationFields content = .ok ()) (hhashed : HashedClaims rt content.claims) :
    ∃ validation, validateRevision rt productId content evidence now = .ok validation ∧
      (validation.status = .valid ↔ validation.gaps = []) ∧
      (validation.status = .conflict ↔ ∃ row ∈ content.claims, ∃ row' ∈ content.claims,
        row.field = row'.field ∧ row.value ≠ row'.value) ∧
      ∀ key, key ∈ validation.gaps.map gapKey ↔
        ∃ field suffix, GapOf content evidence now field suffix ∧ key = (gapId field suffix, field) := by
  obtain ⟨conflicts, hconflicts, hmem⟩ := exists_conflictingFields hhashed
  let ordered := (Dict.ofList ((foundGaps productId content evidence now conflicts).map
    (fun gap => (gap.id, gap)))).sortedItems.map Prod.snd
  have hkeys : ∀ key, key ∈ ordered.map gapKey ↔
      ∃ field suffix, GapOf content evidence now field suffix ∧ key = (gapId field suffix, field) := by
    intro key
    rw [← mem_foundGaps hmem]
    apply mem_ordered
    intro gap hgap gap' hgap' hid
    obtain ⟨field, suffix, h, hkey⟩ := (mem_foundGaps hmem).mp (List.mem_map_of_mem (f := gapKey) hgap)
    obtain ⟨field', suffix', h', hkey'⟩ := (mem_foundGaps hmem).mp (List.mem_map_of_mem (f := gapKey) hgap')
    obtain ⟨hknown, hsuffix⟩ := h.known (mem_gapFields hfields)
    obtain ⟨hknown', hsuffix'⟩ := h'.known (mem_gapFields hfields)
    obtain ⟨hgapId, hgapField⟩ := Prod.mk.inj hkey
    obtain ⟨hgapId', hgapField'⟩ := Prod.mk.inj hkey'
    rw [hgapField, hgapField']
    exact gapId_injective hknown hknown' hsuffix hsuffix' (hgapId.symm.trans (hid.trans hgapId'))
  have hconflict : conflicts ≠ [] ↔ ∃ row ∈ content.claims, ∃ row' ∈ content.claims,
      row.field = row'.field ∧ row.value ≠ row'.value := by
    constructor
    · intro hne
      obtain ⟨_, hfield⟩ := List.exists_mem_of_ne_nil _ hne
      obtain ⟨row, hrow, row', hrow', rfl, hfield', hvalue⟩ := (hmem _).mp hfield
      exact ⟨row, hrow, row', hrow', hfield'.symm, hvalue⟩
    · rintro ⟨row, hrow, row', hrow', hfield, hvalue⟩
      exact List.ne_nil_of_mem ((hmem _).mpr ⟨row, hrow, row', hrow', rfl, hfield.symm, hvalue⟩)
  refine ⟨{ status := if conflicts ≠ [] then .conflict else if ordered.isEmpty then .valid else .hasGaps
            gaps := ordered }, ?_, ?_, ?_, hkeys⟩
  · rw [validateRevision, hconflicts, ok_bind]
    rfl
  · dsimp only
    split
    next hne =>
      obtain ⟨row, hrow, row', hrow', hfield, hvalue⟩ := hconflict.mp hne
      have hgap := (hkeys _).mpr ⟨_, _, .plain (.conflict hrow hrow' hfield hvalue), rfl⟩
      constructor
      · rintro ⟨⟩
      · intro hnil
        rw [hnil] at hgap
        cases hgap
    next =>
      cases ordered with
      | nil => simp
      | cons gap gaps => simp
  · dsimp only
    rw [← hconflict]
    split
    next hne => simp [hne]
    next hne =>
      cases ordered with
      | nil => simp [hne]
      | cons gap gaps => simp [hne]

end Gaps

/-! ## Orders of the rows -/

/-- The two revisions have the same rows, in any order. -/
structure SameRows (content content' : SellerContent) : Prop where
  claims : content.claims.Perm content'.claims
  fitRules : content.fitRules.Perm content'.fitRules
  antiFitRules : content.antiFitRules.Perm content'.antiFitRules

/-- The rows that pass a test stand first. -/
def front (first : SellerEvidenceClaim → Bool) (rows : List SellerEvidenceClaim) :
    List SellerEvidenceClaim :=
  rows.filter first ++ rows.filter (fun row => !first row)

theorem front_perm (first : SellerEvidenceClaim → Bool) (rows : List SellerEvidenceClaim) :
    (front first rows).Perm rows :=
  List.filter_append_perm first rows

/-- Each list in an order of its own -/
def rearranged (order : List SellerEvidenceClaim → List SellerEvidenceClaim) (content : SellerContent) :
    SellerContent :=
  { content with
    claims := order content.claims
    fitRules := order content.fitRules
    antiFitRules := order content.antiFitRules }

section Orders

variable {content content' : SellerContent} {evidence : List SellerEvidenceAttachment} {now : Int}
variable {rt : Runtime} {order : List SellerEvidenceClaim → List SellerEvidenceClaim}

theorem sameRows_rearranged (horder : ∀ rows, (order rows).Perm rows) :
    SameRows content (rearranged order content) :=
  ⟨(horder _).symm, (horder _).symm, (horder _).symm⟩

theorem last_front {first keep : SellerEvidenceClaim → Bool} {rows : List SellerEvidenceClaim}
    {last : SellerEvidenceClaim} (h : ((front first rows).filter keep).getLast? = some last)
    (hlater : ∃ row ∈ rows, keep row = true ∧ first row = false) : first last = false := by
  obtain ⟨row, hrow, hkeep, hfirst⟩ := hlater
  have hmem : row ∈ (rows.filter (fun row => !first row)).filter keep := by
    simp [hrow, hkeep, hfirst]
  rw [front, List.filter_append, List.getLast?_append_of_ne_nil _ (List.ne_nil_of_mem hmem)] at h
  have hlast := List.mem_of_mem_filter (List.mem_of_getLast? h)
  simpa using (List.mem_filter.mp hlast).2

theorem SameRows.retention (h : SameRows content content') :
    (retentionClaims content).Perm (retentionClaims content') :=
  h.claims.filter _

theorem SameRows.citing (h : SameRows content content') (id : String) :
    (SiraApi.citing content id).Perm (SiraApi.citing content' id) := by
  have hanti : (citingOf id content.antiFitRules).Perm (citingOf id content'.antiFitRules) :=
    h.antiFitRules.filter _
  have hfit : (citingOf id content.fitRules).Perm (citingOf id content'.fitRules) := h.fitRules.filter _
  unfold SiraApi.citing
  simp only [ne_eq, ← List.isEmpty_iff, hanti.isEmpty_eq, hfit.isEmpty_eq]
  split
  · exact hanti
  split
  · exact hfit
  · exact h.claims.filter _

theorem citing_rearranged (horder : ∀ rows, (order rows).Perm rows) (id : String) :
    ∃ rows, citing content id = citingOf id rows ∧
      citing (rearranged order content) id = citingOf id (order rows) := by
  have hempty : ∀ rows, citingOf id (order rows) = [] ↔ citingOf id rows = [] := by
    intro rows
    have hperm : (citingOf id (order rows)).Perm (citingOf id rows) := (horder rows).filter _
    rw [← List.isEmpty_iff, ← List.isEmpty_iff, hperm.isEmpty_eq]
  unfold citing rearranged
  simp only [ne_eq, hempty]
  split
  · exact ⟨_, rfl, rfl⟩
  split
  · exact ⟨_, rfl, rfl⟩
  · exact ⟨_, rfl, rfl⟩

variable {field suffix : String}

theorem PlainGap.perm (h : SameRows content content')
    (hgap : PlainGap content field suffix) : PlainGap content' field suffix := by
  cases hgap with
  | required hfield hblank => exact .required hfield (fun row hrow => hblank row (h.claims.mem_iff.mpr hrow))
  | fit hnil => exact .fit (List.Perm.nil_eq (hnil ▸ h.fitRules)).symm
  | antiFit hnil => exact .antiFit (List.Perm.nil_eq (hnil ▸ h.antiFitRules)).symm
  | conflict hrow hrow' hfield hvalue =>
    exact .conflict (h.claims.mem_iff.mp hrow) (h.claims.mem_iff.mp hrow') hfield hvalue

theorem AlwaysGap.perm (h : SameRows content content')
    (hgap : AlwaysGap content evidence now field suffix) : AlwaysGap content' evidence now field suffix := by
  cases hgap with
  | plain hplain => exact .plain (hplain.perm h)
  | retention hne hids =>
    refine .retention ?_ (fun row hrow => hids row (h.retention.mem_iff.mpr hrow))
    exact fun hnil => hne (List.Perm.eq_nil (hnil ▸ h.retention))
  | @evidence id _ _ hne hfield hdefect =>
    refine .evidence ?_ (fun row hrow => hfield row ((h.citing id).mem_iff.mpr hrow)) hdefect
    exact fun hnil => hne (List.Perm.eq_nil (hnil ▸ h.citing id))

theorem AlwaysGap.gapOf (h : AlwaysGap content evidence now field suffix) :
    GapOf content evidence now field suffix := by
  cases h with
  | plain hplain => exact .plain hplain
  | retention hne hids =>
    have hlast := List.getLast?_eq_some_getLast hne
    exact .retention hlast (hids _ (List.mem_of_getLast? hlast))
  | evidence hne hfield hdefect =>
    have hlast := List.getLast?_eq_some_getLast hne
    have hsame := hfield _ (List.mem_of_getLast? hlast)
    subst hsame
    exact .evidence hlast hdefect

theorem GapOf.always_or_order (h : GapOf content evidence now field suffix) :
    AlwaysGap content evidence now field suffix ∨ OrderGap content evidence now field suffix := by
  cases h with
  | plain hplain => exact .inl (.plain hplain)
  | retention hlast hids => exact .inr (.retention (List.mem_of_getLast? hlast) hids)
  | evidence hlast hdefect => exact .inr (.evidence (List.mem_of_getLast? hlast) hdefect)

theorem exists_last {rows : List SellerEvidenceClaim} {row : SellerEvidenceClaim} (h : row ∈ rows) :
    ∃ last, rows.getLast? = some last :=
  ⟨_, List.getLast?_eq_some_getLast (List.ne_nil_of_mem h)⟩

theorem exists_gapOf (h : OrderGap content evidence now field suffix) :
    ∃ content', SameRows content content' ∧ GapOf content' evidence now field suffix := by
  classical
  cases h with
  | @retention row hrow hids =>
    have hsame : SameRows content (rearranged (front (fun other => decide (other ≠ row))) content) :=
      sameRows_rearranged (front_perm _)
    obtain ⟨last, hlast⟩ := exists_last (hsame.retention.mem_iff.mp hrow)
    obtain ⟨hclaim, hfield⟩ := List.mem_filter.mp hrow
    have heq := last_front hlast ⟨row, hclaim, hfield, by simp⟩
    rw [decide_eq_false_iff_not, not_not] at heq
    rw [heq] at hlast
    exact ⟨_, hsame, .retention hlast hids⟩
  | @evidence id _ row hrow hdefect =>
    have hsame : SameRows content (rearranged (front (fun other => decide (other ≠ row))) content) :=
      sameRows_rearranged (front_perm _)
    obtain ⟨rows, hciting, hciting'⟩ := @citing_rearranged content _
      (front_perm (fun other => decide (other ≠ row))) id
    obtain ⟨last, hlast⟩ := exists_last ((hsame.citing id).mem_iff.mp hrow)
    rw [hciting] at hrow
    obtain ⟨hclaim, hcites⟩ := List.mem_filter.mp hrow
    have hlast' := hlast
    rw [hciting'] at hlast'
    have heq := last_front hlast' ⟨row, hclaim, hcites, by simp⟩
    rw [decide_eq_false_iff_not, not_not] at heq
    rw [heq] at hlast
    exact ⟨_, hsame, .evidence hlast hdefect⟩

/-- The rows of a field stand first, those of them that cite nothing before the others. -/
def fieldFirst (field : String) (rows : List SellerEvidenceClaim) : List SellerEvidenceClaim :=
  front (fun row => row.field = field) (front (fun row => row.evidenceIds.isEmpty) rows)

theorem fieldFirst_perm (field : String) (rows : List SellerEvidenceClaim) :
    (fieldFirst field rows).Perm rows :=
  (front_perm _ _).trans (front_perm _ _)

theorem filter_front_self (first : SellerEvidenceClaim → Bool) (rows : List SellerEvidenceClaim) :
    (front first rows).filter first = rows.filter first := by
  simp [front, List.filter_filter]

/-- A gap that does not have to be there is not, when the rows of its field stand first. -/
theorem not_gapOf_fieldFirst (h : ¬AlwaysGap content evidence now field suffix) :
    ¬GapOf (rearranged (fieldFirst field) content) evidence now field suffix := by
  have hsame : SameRows content (rearranged (fieldFirst field) content) :=
    sameRows_rearranged (fieldFirst_perm field)
  intro hgap
  apply h
  cases hgap with
  | plain hplain =>
    have hback : SameRows (rearranged (fieldFirst field) content) content :=
      ⟨hsame.claims.symm, hsame.fitRules.symm, hsame.antiFitRules.symm⟩
    exact .plain (hplain.perm hback)
  | @retention last hlast hids =>
    have hmem := hsame.retention.mem_iff.mpr (List.mem_of_getLast? hlast)
    refine .retention (List.ne_nil_of_mem hmem) (fun row hrow => ?_)
    -- The last retention claim cites nothing, so none stands behind those that cite nothing.
    have hfilter : retentionClaims (rearranged (fieldFirst "data_retention_days") content) =
        (front (fun row => row.evidenceIds.isEmpty) content.claims).filter
          (fun row => row.field = "data_retention_days") :=
      filter_front_self _ _
    rw [hfilter] at hlast
    by_contra hcites
    obtain ⟨hclaim, hfield⟩ := List.mem_filter.mp hrow
    have hlater := last_front hlast ⟨row, hclaim, hfield, by simpa using hcites⟩
    rw [hids] at hlater
    cases hlater
  | @evidence id _ last hlast hdefect =>
    have hmem := (hsame.citing id).mem_iff.mpr (List.mem_of_getLast? hlast)
    refine .evidence (List.ne_nil_of_mem hmem) (fun row hrow => ?_) hdefect
    obtain ⟨rows, hciting, hciting'⟩ := @citing_rearranged content _ (fieldFirst_perm last.field) id
    rw [hciting'] at hlast
    rw [hciting] at hrow
    by_contra hfield
    obtain ⟨hclaim, hcites⟩ := List.mem_filter.mp hrow
    have hbefore : row ∈ front (fun row => row.evidenceIds.isEmpty) rows :=
      (front_perm _ _).mem_iff.mpr hclaim
    have hlater := last_front hlast ⟨row, hbefore, hcites, by simpa using hfield⟩
    simp at hlater

/-! ## When the validation is exact -/

/-- The evidence is there, was not rejected and was observed within the last 365 days. -/
def Usable (evidence : List SellerEvidenceAttachment) (now : Int) (id : String) : Prop :=
  ∃ attachment, evidence.find? (·.id = id) = some attachment ∧ attachment.verificationState ≠ .rejected ∧
    ∀ observed ∈ attachment.observedAt, now - staleAfter ≤ observed

/-- What a valid revision is -/
structure Complete (content : SellerContent) (evidence : List SellerEvidenceAttachment) (now : Int) :
    Prop where
  required : ∀ field ∈ requiredClaims, ∃ row ∈ content.claims, row.field = field ∧ isBlank row.value = false
  single : ∀ row ∈ content.claims, ∀ row' ∈ content.claims, row.field = row'.field → row.value = row'.value
  fit : content.fitRules ≠ []
  antiFit : content.antiFitRules ≠ []
  retention : ∀ row ∈ content.claims, row.field = "data_retention_days" → row.evidenceIds ≠ []
  cited : ∀ row ∈ content.rows, ∀ id ∈ row.evidenceIds, Usable evidence now id

/-- The validation accepts exactly the complete revisions, and its status and gaps are those of the rows in
    any order. -/
structure ExactValidation (rt : Runtime) (productId : String) (content : SellerContent)
    (evidence : List SellerEvidenceAttachment) (now : Int) : Prop where
  valid : (∃ validation, validateRevision rt productId content evidence now = .ok validation ∧
    validation.status = .valid) ↔ Complete content evidence now
  stable : ∀ content', SameRows content content' → ∃ validation validation',
    validateRevision rt productId content evidence now = .ok validation ∧
    validateRevision rt productId content' evidence now = .ok validation' ∧
    validation.status = validation'.status ∧
    ∀ key, key ∈ validation.gaps.map gapKey ↔ key ∈ validation'.gaps.map gapKey

/-- Every gap that depends on the last row is there whichever row is the last. -/
def OrderFree (content : SellerContent) (evidence : List SellerEvidenceAttachment) (now : Int) : Prop :=
  ∀ field suffix, OrderGap content evidence now field suffix → AlwaysGap content evidence now field suffix

theorem evidenceDefect_eq_none {id : String} :
    evidenceDefect evidence now id = none ↔ Usable evidence now id := by
  unfold evidenceDefect Usable
  cases evidence.find? (·.id = id) with
  | none => simp
  | some attachment =>
    dsimp only
    split
    next hrejected => simp [hrejected]
    next hrejected =>
      have hstale : attachment.observedAt.any (fun observed => observed < now - staleAfter) = true ↔
          ¬∀ observed ∈ attachment.observedAt, now - staleAfter ≤ observed := by
        cases attachment.observedAt with
        | none => simp
        | some observed =>
          simp only [Option.any_some, decide_eq_true_eq, Option.mem_def, Option.some.injEq, forall_eq',
            not_le]
      split
      next hold =>
        constructor
        · rintro ⟨⟩
        · rintro ⟨_, heq, -, hfresh⟩
          cases heq
          exact absurd hfresh (hstale.mp hold)
      next hold =>
        constructor
        · exact fun _ => ⟨_, rfl, hrejected, not_not.mp (hstale.not.mp hold)⟩
        · exact fun _ => rfl

theorem exists_mem_citing {id : String} : (∃ row, row ∈ citing content id) ↔
    ∃ row ∈ content.rows, id ∈ row.evidenceIds := by
  have hrows : (∃ row ∈ content.rows, id ∈ row.evidenceIds) ↔ citingOf id content.rows ≠ [] := by
    simp [citingOf, List.filter_eq_nil_iff]
  rw [hrows, ← List.getLast?_isSome, ← getLast?_citing, List.getLast?_isSome]
  exact ⟨fun h => List.ne_nil_of_mem h.choose_spec, fun h => List.exists_mem_of_ne_nil _ h⟩

theorem complete_iff : Complete content evidence now ↔ ∀ field suffix,
    ¬AlwaysGap content evidence now field suffix ∧ ¬OrderGap content evidence now field suffix := by
  constructor
  · intro h field suffix
    have horder : ¬OrderGap content evidence now field suffix := by
      intro hgap
      cases hgap with
      | retention hrow hids =>
        obtain ⟨hclaim, hfield⟩ := List.mem_filter.mp hrow
        exact h.retention _ hclaim (of_decide_eq_true hfield) hids
      | evidence hrow hdefect =>
        obtain ⟨row, hcited, hid⟩ := exists_mem_citing.mp ⟨_, hrow⟩
        rw [evidenceDefect_eq_none.mpr (h.cited row hcited _ hid)] at hdefect
        cases hdefect
    refine ⟨fun hgap => ?_, horder⟩
    cases hgap with
    | plain hplain =>
      cases hplain with
      | required hfield hblank =>
        obtain ⟨row, hrow, hname, hvalue⟩ := h.required _ hfield
        rw [hblank row hrow hname] at hvalue
        cases hvalue
      | fit hnil => exact h.fit hnil
      | antiFit hnil => exact h.antiFit hnil
      | conflict hrow hrow' hfield hvalue => exact hvalue (h.single _ hrow _ hrow' hfield)
    | retention hne hids =>
      obtain ⟨row, hrow⟩ := List.exists_mem_of_ne_nil _ hne
      exact horder (.retention hrow (hids row hrow))
    | evidence hne hfield hdefect =>
      obtain ⟨row, hrow⟩ := List.exists_mem_of_ne_nil _ hne
      have hgap := OrderGap.evidence hrow hdefect
      rw [hfield row hrow] at hgap
      exact horder hgap
  · intro h
    have hplain : ∀ field suffix, ¬PlainGap content field suffix :=
      fun field suffix hgap => (h field suffix).1 (.plain hgap)
    constructor
    · intro field hfield
      by_contra hnone
      apply hplain field "required"
      refine .required hfield (fun row hrow hname => ?_)
      by_contra hvalue
      exact hnone ⟨row, hrow, hname, Bool.not_eq_true _ ▸ hvalue⟩
    · intro row hrow row' hrow' hfield
      by_contra hvalue
      exact hplain _ _ (.conflict hrow hrow' hfield hvalue)
    · exact fun hnil => hplain _ _ (.fit hnil)
    · exact fun hnil => hplain _ _ (.antiFit hnil)
    · intro row hrow hfield hids
      exact (h _ _).2 (.retention (List.mem_filter.mpr ⟨hrow, decide_eq_true hfield⟩) hids)
    · intro row hrow id hid
      obtain ⟨other, hother⟩ := exists_mem_citing.mpr ⟨row, hrow, hid⟩
      apply evidenceDefect_eq_none.mp
      by_contra hdefect
      obtain ⟨suffix, hsuffix⟩ := Option.ne_none_iff_exists'.mp hdefect
      exact (h _ _).2 (.evidence hother hsuffix)

theorem OrderFree.gapOf_iff (h : OrderFree content evidence now)
    (hsame : SameRows content content') :
    GapOf content' evidence now field suffix ↔ AlwaysGap content evidence now field suffix := by
  have hback : SameRows content' content :=
    ⟨hsame.claims.symm, hsame.fitRules.symm, hsame.antiFitRules.symm⟩
  constructor
  · intro hgap
    rcases hgap.always_or_order with halways | horder
    · exact halways.perm hback
    · apply h
      cases horder with
      | retention hrow hids => exact .retention (hback.retention.mem_iff.mp hrow) hids
      | @evidence id _ _ hrow hdefect => exact .evidence ((hback.citing id).mem_iff.mp hrow) hdefect
  · exact fun halways => (halways.perm hsame).gapOf

theorem SameRows.refl (content : SellerContent) : SameRows content content :=
  ⟨.refl _, .refl _, .refl _⟩

theorem HashedClaims.perm {claims claims' : List SellerEvidenceClaim} (h : HashedClaims rt claims)
    (hperm : claims.Perm claims') : HashedClaims rt claims' := by
  constructor
  · exact fun row hrow => h.canonical row (hperm.mem_iff.mpr hrow)
  · exact fun row hrow row' hrow' =>
      h.separate row (hperm.mem_iff.mpr hrow) row' (hperm.mem_iff.mpr hrow')

theorem validatePublicationFields_perm (h : SameRows content content')
    (hfields : validatePublicationFields content = .ok ()) :
    validatePublicationFields content' = .ok () := by
  unfold validatePublicationFields at hfields ⊢
  rw [← h.claims.all_eq, ← h.fitRules.all_eq, ← h.antiFitRules.all_eq]
  exact hfields

theorem gapOf_iff_key {keys : List (String × String)} (hkeys : ∀ key, key ∈ keys ↔
    ∃ field suffix, GapOf content evidence now field suffix ∧ key = (gapId field suffix, field)) :
    (gapId field suffix, field) ∈ keys ↔ GapOf content evidence now field suffix := by
  rw [hkeys]
  constructor
  · rintro ⟨_, suffix', hgap, heq⟩
    obtain ⟨hid, rfl⟩ := Prod.mk.inj heq
    have hsuffix : suffix = suffix' := String.append_right_inj _ |>.mp hid
    exact hsuffix ▸ hgap
  · exact fun hgap => ⟨field, suffix, hgap, rfl⟩

/-- A revision whose gaps are the same in every order is accepted exactly if it is complete. -/
theorem OrderFree.gaps_eq_nil_iff (h : OrderFree content evidence now) {gaps : List SellerValidationGap}
    (hkeys : ∀ key, key ∈ gaps.map gapKey ↔
      ∃ field suffix, GapOf content evidence now field suffix ∧ key = (gapId field suffix, field)) :
    gaps = [] ↔ Complete content evidence now := by
  rw [complete_iff, ← List.map_eq_nil_iff (f := gapKey), List.eq_nil_iff_forall_not_mem]
  constructor
  · intro hnone field suffix
    have halways : ¬AlwaysGap content evidence now field suffix := by
      rw [← h.gapOf_iff (SameRows.refl content), ← gapOf_iff_key hkeys]
      exact hnone _
    exact ⟨halways, fun horder => halways (h field suffix horder)⟩
  · intro hnone key hkey
    obtain ⟨field, suffix, hgap, -⟩ := (hkeys key).mp hkey
    exact (hnone field suffix).1 ((h.gapOf_iff (SameRows.refl content)).mp hgap)

/-- The validation is exact if and only if it does not depend on which row is the last. -/
theorem exactValidation_iff (rt : Runtime) (productId : String) (content : SellerContent)
    (evidence : List SellerEvidenceAttachment) (now : Int)
    (hfields : validatePublicationFields content = .ok ()) (hhashed : HashedClaims rt content.claims) :
    ExactValidation rt productId content evidence now ↔ OrderFree content evidence now := by
  obtain ⟨validation, hvalidation, hvalid, hconflict, hkeys⟩ :=
    exists_validateRevision productId evidence now hfields hhashed
  constructor
  · rintro ⟨-, hstable⟩ field suffix horder
    by_contra halways
    -- One order has the gap, another has not.
    have hgaps : ∀ content', SameRows content content' →
        (GapOf content' evidence now field suffix ↔ GapOf content evidence now field suffix) := by
      intro content' hsame
      obtain ⟨_, validation', hok, hok', -, hsameKeys⟩ := hstable content' hsame
      rw [hvalidation] at hok
      cases hok
      obtain ⟨_, hvalidation', -, -, hkeys'⟩ := exists_validateRevision productId evidence now
        (validatePublicationFields_perm hsame hfields) (hhashed.perm hsame.claims)
      rw [hvalidation'] at hok'
      cases hok'
      rw [← gapOf_iff_key hkeys', ← gapOf_iff_key hkeys, hsameKeys]
    obtain ⟨content', hsame, hgap⟩ := exists_gapOf horder
    have hnot := not_gapOf_fieldFirst halways
    exact hnot ((hgaps _ (sameRows_rearranged (fieldFirst_perm field))).mpr ((hgaps _ hsame).mp hgap))
  · intro hfree
    constructor
    · rw [← hfree.gaps_eq_nil_iff hkeys, ← hvalid]
      constructor
      · rintro ⟨_, hok, hstatus⟩
        rw [hvalidation] at hok
        cases hok
        exact hstatus
      · exact fun hstatus => ⟨validation, hvalidation, hstatus⟩
    · intro content' hsame
      obtain ⟨validation', hvalidation', hvalid', hconflict', hkeys'⟩ := exists_validateRevision productId
        evidence now (validatePublicationFields_perm hsame hfields) (hhashed.perm hsame.claims)
      have hsameKeys : ∀ key, key ∈ validation.gaps.map gapKey ↔ key ∈ validation'.gaps.map gapKey := by
        intro key
        simp only [hkeys, hkeys', hfree.gapOf_iff hsame, hfree.gapOf_iff (SameRows.refl content)]
      have hnil : validation.gaps = [] ↔ validation'.gaps = [] := by
        rw [← List.map_eq_nil_iff (f := gapKey), ← List.map_eq_nil_iff (f := gapKey) (l := validation'.gaps),
          List.eq_nil_iff_forall_not_mem, List.eq_nil_iff_forall_not_mem]
        simp only [hsameKeys]
      have hconflicts : validation.status = .conflict ↔ validation'.status = .conflict := by
        rw [hconflict, hconflict']
        simp only [hsame.claims.mem_iff]
      refine ⟨validation, validation', hvalidation, hvalidation', ?_, hsameKeys⟩
      rw [← hvalid, ← hvalid'] at hnil
      revert hnil hconflicts
      cases validation.status <;> cases validation'.status <;> simp

end Orders

/-! ## A retention claim without evidence -/

/-- A row whose value depends on its field only -/
def sampleRow (field : String) (evidenceIds : List String) : SellerEvidenceClaim where
  field := field
  value := if field = "data_retention_days" then .int 30 else .str field
  evidenceIds := evidenceIds

/-- A revision with some retention claims, given by the evidence that each cites -/
def sampleRevision (retention : List (List String)) : SellerContent where
  claims := [sampleRow "product_name" [], sampleRow "public_summary" [], sampleRow "supported_regions" []] ++
    retention.map (sampleRow "data_retention_days")
  fitRules := [sampleRow "employee_count_min" []]
  antiFitRules := [sampleRow "employee_count_max" []]
  proofAdapter := none

/-- A verified piece of evidence for the retention -/
def retentionEvidence : SellerEvidenceAttachment where
  id := "ev_retention"
  draftId := "draft"
  attachedRevision := 1
  sourceReferenceHash := "sha256:source"
  publicSourceUrl := none
  object := none
  sourceClass := "CONTRACT"
  claimFields := ["data_retention_days"]
  observedAt := none
  verificationState := .verified
  addedByActorId := "editor"

theorem value_sample {retention : List (List String)} {row : SellerEvidenceClaim}
    (h : row ∈ (sampleRevision retention).claims) : row.value = (sampleRow row.field []).value := by
  rcases List.mem_append.mp h with h | h
  · simp only [List.mem_cons, List.not_mem_nil, or_false] at h
    rcases h with rfl | rfl | rfl <;> rfl
  · obtain ⟨ids, -, rfl⟩ := List.mem_map.mp h
    rfl

theorem hashedClaims_sample (rt : Runtime) (retention : List (List String)) :
    HashedClaims rt (sampleRevision retention).claims := by
  constructor
  · intro row hrow
    rw [value_sample hrow, sampleRow]
    dsimp only
    split <;> simp
  · intro row hrow row' hrow' hfield _
    rw [value_sample hrow, value_sample hrow', hfield]

theorem exactValidation_iff_sample :
    ExactValidation Runtime.ascii "product" (sampleRevision [["ev_retention"]]) [retentionEvidence] 0 ↔
      OrderFree (sampleRevision [["ev_retention"]]) [retentionEvidence] 0 :=
  exactValidation_iff Runtime.ascii "product" _ _ 0 (by decide) (hashedClaims_sample _ _)

/-- The first retention claim cites nothing, the last one does, and the validation accepts both. -/
theorem validation_inexact :
    ¬ExactValidation Runtime.ascii "product" (sampleRevision [[], ["ev_retention"]]) [retentionEvidence] 0 := by
  obtain ⟨validation, hvalidation, hvalid, -, hkeys⟩ := @exists_validateRevision
    (sampleRevision [[], ["ev_retention"]]) Runtime.ascii "product" [retentionEvidence] 0 (by decide)
    (hashedClaims_sample _ _)
  have hgaps : validation.gaps = [] := by
    rw [← List.map_eq_nil_iff (f := gapKey), List.eq_nil_iff_forall_not_mem]
    intro key hkey
    obtain ⟨field, suffix, hgap, -⟩ := (hkeys key).mp hkey
    cases hgap with
    | plain hplain =>
      cases hplain with
      | @required field hfield hblank =>
        have hrow : sampleRow field [] ∈ (sampleRevision [[], ["ev_retention"]]).claims := by
          simp only [requiredClaims, List.mem_cons, List.not_mem_nil, or_false] at hfield
          rcases hfield with rfl | rfl | rfl | rfl <;> simp [sampleRevision]
        have hvalue : ∀ field ∈ requiredClaims, isBlank (sampleRow field []).value = false := by decide
        have hsome := hblank _ hrow rfl
        rw [hvalue field hfield] at hsome
        cases hsome
      | conflict hrow hrow' hfield hvalue =>
        apply hvalue
        rw [value_sample hrow, value_sample hrow', hfield]
      | fit hnil => cases hnil
      | antiFit hnil => cases hnil
    | retention hlast hids =>
      have hcites : (retentionClaims (sampleRevision [[], ["ev_retention"]])).getLast? =
          some (sampleRow "data_retention_days" ["ev_retention"]) := by
        simp [retentionClaims, sampleRevision, sampleRow]
      rw [hcites] at hlast
      cases hlast
      cases hids
    | evidence hlast hdefect =>
      obtain ⟨row, hrow, hid⟩ := exists_mem_citing.mp ⟨_, List.mem_of_getLast? hlast⟩
      have hcited : ∀ row ∈ (sampleRevision [[], ["ev_retention"]]).rows, ∀ id ∈ row.evidenceIds,
          evidenceDefect [retentionEvidence] 0 id = none := by
        simp [SellerContent.rows, sampleRevision, sampleRow, evidenceDefect, retentionEvidence]
      rw [hcited row hrow _ hid] at hdefect
      cases hdefect
  intro hexact
  have hcomplete := hexact.valid.mp ⟨validation, hvalidation, hvalid.mpr hgaps⟩
  exact hcomplete.retention (sampleRow "data_retention_days" []) (by simp [sampleRevision]) rfl rfl

end SiraApi
