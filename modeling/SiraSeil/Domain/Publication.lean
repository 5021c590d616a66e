-- SUMMARY: The publication boundary: a publication depends on the allowlisted data alone, holds no denied field, and publishes itself again.
import SiraSeil.Domain.BilateralExchange
import SiraSeil.Domain.Hashing
import SiraSeil.Library.Raising
import SiraSeil.Library.TreePaths

/-!
# Publication

`domain/publication.py` copies the allowlisted paths of a source object and then looks for denied
fields in the copy. The leaves of an object are of any type, and `f` takes a leaf to what Python's
equality compares of it.
-/

namespace Domain

/-- `DEFAULT_REQUIREMENT_BRIEF_ALLOWLIST` -/
def defaultRequirementBriefAllowlist : List String :=
  ["schema_version", "requirement_brief_id", "request_id", "version", "visibility", "category_id",
    "jtbd_id", "intent", "desired_outcome", "desired_outcome.metric", "desired_outcome.target",
    "desired_outcome.operator", "desired_outcome.checkpoint_days", "seat_count", "deadline", "region",
    "currency", "meeting_platforms", "required_capabilities", "workflow_requirements",
    "privacy_requirements", "privacy_requirements.customer_training_allowed",
    "privacy_requirements.residency", "privacy_requirements.retention",
    "privacy_requirements.recording_notice_required", "privacy_requirements.source_links_required",
    "identity_requirements", "integration_requirements", "implementation_constraints",
    "disclosed_stack_interfaces"]

/-- `DEFAULT_PACK_PUBLICATION_ALLOWLIST` -/
def defaultPackPublicationAllowlist : List String :=
  ["schema_version", "pack_id", "version", "status", "seller_id", "product_id", "offer_ids",
    "category_ids", "jtbd_ids", "identity", "jobs_and_segments", "capabilities", "requirements",
    "compatibility", "security_privacy", "deployment", "commercial", "contract", "facts", "fit_rules",
    "anti_fit_rules", "dependency_rules", "positioning_angles", "claims", "fulfillment_spec",
    "merchant_chain", "operations", "learning_policy", "published_at", "supersedes_version",
    "content_hash"]

/-- `_DENIED_SEGMENTS` -/
def deniedSegments : List String :=
  ["organization_name", "organization_id", "company_name", "company_identity", "buyer_identity",
    "hidden_budget", "hidden_maximum", "maximum_budget", "budget_envelope", "payer_identity",
    "employee", "employees", "contacts", "contact_details", "email", "phone", "private_failures",
    "prior_private_failures", "competing_bids", "competing_offers", "competitor_list",
    "unrestricted_stackfile", "raw_buyer_passport", "roadmap_notes", "negotiation_bounds",
    "seller_floor", "fulfillment_credentials", "provider_credentials", "source_material",
    "compilation_history"]

/-- `_DENIED_MARKERS` -/
def deniedMarkers : List String :=
  ["secret", "password", "credential", "dynamic_cvv", "hidden_budget", "hidden_maximum",
    "budget_envelope", "roadmap", "negotiation_bound", "seller_floor", "service_account",
    "private_failure", "competing_bid", "competing_offer", "competitor_list", "source_material",
    "compilation_history", "unpublished_constraint"]

/-- `str.lower`, which keeps every text that it returns -/
structure Lowering where
  lower : String → String
  lower_lower : ∀ text, lower (lower text) = lower text
  lower_ascii : ∀ text, (∀ c ∈ text.toList, c.toNat < 128) → lower text = Runtime.lowerAscii text

inductive PublicationError
  | domainValidation (message : String)
  /-- An `AttributeError` of a destination that is no dictionary -/
  | attribute
  deriving DecidableEq, Repr

/-- The fields of an object with leaves of one type -/
abbrev ObjectFields (α : Type) := List (String × KeyedTree String α)

variable {α β : Type}

section Denied

variable (l : Lowering)

/-- `_is_denied_segment` -/
def isDeniedSegment (value : String) : Bool :=
  let lowered := l.lower value
  lowered ∈ deniedSegments || deniedMarkers.any (hasPart lowered)

mutual
/-- `forbidden_paths` of a value at a path -/
def forbiddenPaths : KeyedTree String α → String → List String
  | .leaf _, _ => []
  | .seq items, start => forbiddenItems items start 0
  | .obj fields, start => forbiddenFields fields start

def forbiddenItems : List (KeyedTree String α) → String → Nat → List String
  | [], _, _ => []
  | value :: items, start, index =>
    forbiddenPaths value (start ++ "[" ++ toString index ++ "]") ++
      forbiddenItems items start (index + 1)

def forbiddenFields : List (String × KeyedTree String α) → String → List String
  | [], _ => []
  | (key, value) :: fields, start =>
    let path := if start = "" then key else start ++ "." ++ key
    (if isDeniedSegment l (l.lower key) then [path] else []) ++ forbiddenPaths value path ++
      forbiddenFields fields start
end

/-- `assert_public_payload` -/
def assertPublicPayload (payload : ObjectFields α) : Except PublicationError Unit :=
  let paths := forbiddenPaths l (.obj payload) ""
  if paths = [] then .ok ()
  else .error (.domainValidation
    ("publication payload contains denied fields: " ++ String.intercalate ", " paths))

end Denied

/-- `path.split(".")` -/
def segments (path : String) : List String :=
  (path.toList.splitOn '.').map String.ofList

theorem segments_ne_nil (path : String) : segments path ≠ [] := by
  unfold segments
  simp

/-- What an object holds at a dotted path -/
def valueAt (source : ObjectFields α) (path : String) : Option (KeyedTree String α) :=
  KeyedTree.subtree (segments path) (.obj source)

/-- `_copy_path` -/
def copyPath (source target : ObjectFields α) (path : String) : Except PublicationError (ObjectFields α) :=
  match valueAt source path with
  | none => .ok target
  | some current =>
    match KeyedTree.write current (segments path).dropLast
        ((segments path).getLast (segments_ne_nil path)) target with
    | some written => .ok written
    | none => .error .attribute

section Publish

variable (l : Lowering)

/-- A path of the allowlist: it may have no denied segment. -/
def copyAllowed (source target : ObjectFields α) (path : String) : Except PublicationError (ObjectFields α) :=
  if (segments path).any (isDeniedSegment l) then
    .error (.domainValidation ("allowlist contains prohibited field: " ++ path))
  else copyPath source target path

/-- `_allowlisted_copy` -/
def allowlistedCopy (source : ObjectFields α) (allowedPaths : List String) :
    Except PublicationError (ObjectFields α) := do
  let output ← (Sorting.sortedSet allowedPaths).foldlM (copyAllowed l source) []
  assertPublicPayload l output
  return output

def sanitizeRequirementBrief (purchaseBrief : ObjectFields α)
    (allowlist : List String := defaultRequirementBriefAllowlist) : Except PublicationError (ObjectFields α) :=
  allowlistedCopy l purchaseBrief allowlist

def publishSeilPack (productPassport : ObjectFields α)
    (allowlist : List String := defaultPackPublicationAllowlist) : Except PublicationError (ObjectFields α) :=
  allowlistedCopy l productPassport allowlist

end Publish

/-! ## Denied fields -/

section Denied

variable {l : Lowering}

theorem isDeniedSegment_lower (key : String) :
    isDeniedSegment l (l.lower key) = isDeniedSegment l key := by
  unfold isDeniedSegment
  rw [l.lower_lower]

mutual
theorem forbiddenPaths_eq_nil : (value : KeyedTree String α) → (start : String) →
    (forbiddenPaths l value start = [] ↔ ∀ key ∈ value.keys, isDeniedSegment l key = false)
  | .leaf _, _ => by simp [forbiddenPaths, KeyedTree.keys]
  | .seq items, start => by
    simpa [forbiddenPaths, KeyedTree.keys] using forbiddenItems_eq_nil items start 0
  | .obj fields, start => by
    simpa [forbiddenPaths, KeyedTree.keys] using forbiddenFields_eq_nil fields start

theorem forbiddenItems_eq_nil : (items : List (KeyedTree String α)) → (start : String) →
    (index : Nat) → (forbiddenItems l items start index = [] ↔
      ∀ key ∈ KeyedTree.seqKeys items, isDeniedSegment l key = false)
  | [], _, _ => by simp [forbiddenItems, KeyedTree.seqKeys]
  | value :: items, start, index => by
    simp only [forbiddenItems, KeyedTree.seqKeys, List.append_eq_nil_iff, List.mem_append,
      forbiddenPaths_eq_nil value, forbiddenItems_eq_nil items start (index + 1), or_imp, forall_and]

theorem forbiddenFields_eq_nil : (fields : List (String × KeyedTree String α)) → (start : String) →
    (forbiddenFields l fields start = [] ↔
      ∀ key ∈ KeyedTree.fieldKeys fields, isDeniedSegment l key = false)
  | [], _ => by simp [forbiddenFields, KeyedTree.fieldKeys]
  | (key, value) :: fields, start => by
    simp only [forbiddenFields, KeyedTree.fieldKeys, List.append_eq_nil_iff, List.mem_cons,
      List.mem_append, forbiddenPaths_eq_nil value, forbiddenFields_eq_nil fields start, or_imp,
      forall_and, forall_eq, isDeniedSegment_lower, and_assoc]
    cases isDeniedSegment l key <;> simp
end

theorem assertPublicPayload_eq_ok {payload : ObjectFields α} :
    assertPublicPayload l payload = .ok () ↔
      ∀ key ∈ (KeyedTree.obj payload).keys, isDeniedSegment l key = false := by
  rw [← forbiddenPaths_eq_nil _ ""]
  unfold assertPublicPayload
  simp only
  split
  · next hnone => simp [hnone]
  · next hsome => simp [hsome]

end Denied

/-! ## Copies -/

theorem segments_eq (path : String) :
    (segments path).dropLast ++ [(segments path).getLast (segments_ne_nil path)] = segments path :=
  List.dropLast_concat_getLast (segments_ne_nil path)

variable {source source' target : ObjectFields α}

theorem copyPath_congr {path : String} (h : valueAt source path = valueAt source' path) :
    copyPath source target path = copyPath source' target path := by
  unfold copyPath
  rw [h]

theorem foldlM_copyPath_congr {paths : List String}
    (h : ∀ path ∈ paths, valueAt source path = valueAt source' path) :
    paths.foldlM (copyPath source) target = paths.foldlM (copyPath source') target := by
  induction paths generalizing target with
  | nil => rfl
  | cons path paths ih =>
    rw [List.foldlM_cons, List.foldlM_cons, copyPath_congr (h path List.mem_cons_self)]
    congr 1
    funext written
    exact ih (fun other hother => h other (List.mem_cons_of_mem path hother))

/-- A copy into a part of the source succeeds. It leaves a part that agrees with the source at the
    path, and wherever it agreed before. -/
theorem copyPath_part (hsource : (KeyedTree.obj source).Distinct)
    (h : KeyedTree.Part (.obj target) (.obj source)) (path : String) :
    ∃ target', copyPath source target path = .ok target' ∧
      KeyedTree.Part (.obj target') (.obj source) ∧ valueAt target' path = valueAt source path ∧
      ∀ other, valueAt target other = valueAt source other →
        valueAt target' other = valueAt source other := by
  unfold copyPath
  cases hvalue : valueAt source path with
  | none => exact ⟨target, rfl, h, h.subtree_eq_none hvalue, fun _ hother => hother⟩
  | some current =>
    have hpath := hvalue
    unfold valueAt at hpath
    rw [← segments_eq path] at hpath
    obtain ⟨written, hwritten, hpart, hat, hkeeps⟩ := h.write hsource hpath
    rw [segments_eq] at hat
    exact ⟨written, by simp [hwritten], hpart, hat, fun other => hkeeps (segments other)⟩

theorem foldlM_copyPath (hsource : (KeyedTree.obj source).Distinct)
    (h : KeyedTree.Part (.obj target) (.obj source)) (paths : List String) :
    ∃ output, paths.foldlM (copyPath source) target = .ok output ∧
      KeyedTree.Part (.obj output) (.obj source) ∧
      ∀ path, path ∈ paths ∨ valueAt target path = valueAt source path →
        valueAt output path = valueAt source path := by
  induction paths generalizing target with
  | nil => exact ⟨target, rfl, h, by simp⟩
  | cons path paths ih =>
    obtain ⟨target', hcopied, hpart, hat, hkeeps⟩ := copyPath_part hsource h path
    obtain ⟨output, hrest, hwhole, hagrees⟩ := ih hpart
    refine ⟨output, by simp [List.foldlM_cons, hcopied, hrest], hwhole, ?_⟩
    rintro other (hmem | hbefore)
    · rcases List.mem_cons.mp hmem with rfl | hlater
      · exact hagrees other (.inr hat)
      · exact hagrees other (.inl hlater)
    · exact hagrees other (.inr (hkeeps other hbefore))

variable {f : α → β}

/-- Two objects hold equal values at a path, or neither holds one. -/
def AlikeAt (f : α → β) (source source' : ObjectFields α) (path : String) : Prop :=
  Option.Rel (KeyedTree.SameBy f) (valueAt source path) (valueAt source' path)

theorem copyPath_alike {target' : ObjectFields α} (hsource : (KeyedTree.obj source).Distinct)
    (hsource' : (KeyedTree.obj source').Distinct) (h : KeyedTree.Part (.obj target) (.obj source))
    (h' : KeyedTree.Part (.obj target') (.obj source'))
    (hsame : (KeyedTree.obj target).SameBy f (.obj target')) {path : String}
    (hpath : AlikeAt f source source' path) {written written' : ObjectFields α}
    (hwritten : copyPath source target path = .ok written)
    (hwritten' : copyPath source' target' path = .ok written') :
    (KeyedTree.obj written).SameBy f (.obj written') := by
  unfold copyPath at hwritten hwritten'
  unfold AlikeAt at hpath
  cases hvalue : valueAt source path with
  | none =>
    rw [hvalue] at hpath hwritten
    cases hvalue' : valueAt source' path with
    | none =>
      rw [hvalue'] at hwritten'
      cases hwritten
      cases hwritten'
      exact hsame
    | some current' =>
      rw [hvalue'] at hpath
      cases hpath
  | some current =>
    rw [hvalue] at hpath hwritten
    cases hvalue' : valueAt source' path with
    | none =>
      rw [hvalue'] at hpath
      cases hpath
    | some current' =>
      rw [hvalue'] at hpath hwritten'
      cases hpath with
      | some hcurrent =>
        simp only at hwritten hwritten'
        split at hwritten
        · next hout =>
          cases hwritten
          split at hwritten'
          · next hout' =>
            cases hwritten'
            exact hcurrent.write (h.distinct hsource) (h'.distinct hsource') hsame hout hout'
          · cases hwritten'
        · cases hwritten

theorem foldlM_alike {target' : ObjectFields α} (hsource : (KeyedTree.obj source).Distinct)
    (hsource' : (KeyedTree.obj source').Distinct) (h : KeyedTree.Part (.obj target) (.obj source))
    (h' : KeyedTree.Part (.obj target') (.obj source'))
    (hsame : (KeyedTree.obj target).SameBy f (.obj target')) {paths : List String}
    (hpaths : ∀ path ∈ paths, AlikeAt f source source' path) {output output' : ObjectFields α}
    (houtput : paths.foldlM (copyPath source) target = .ok output)
    (houtput' : paths.foldlM (copyPath source') target' = .ok output') :
    (KeyedTree.obj output).SameBy f (.obj output') := by
  induction paths generalizing target target' with
  | nil =>
    cases houtput
    cases houtput'
    exact hsame
  | cons path paths ih =>
    obtain ⟨written, hwritten, hpart, -⟩ := copyPath_part hsource h path
    obtain ⟨written', hwritten', hpart', -⟩ := copyPath_part hsource' h' path
    rw [List.foldlM_cons, hwritten] at houtput
    rw [List.foldlM_cons, hwritten'] at houtput'
    refine ih hpart hpart' ?_ (fun other hother => hpaths other (List.mem_cons_of_mem path hother))
      houtput houtput'
    exact copyPath_alike hsource hsource' h h' hsame (hpaths path List.mem_cons_self) hwritten hwritten'

/-! ## Publications -/

/-- Two calls both return equal objects or both refuse theirs. -/
inductive SameOutcome (f : α → β) :
    Except PublicationError (ObjectFields α) → Except PublicationError (ObjectFields α) → Prop
  | returns {output output' : ObjectFields α} (h : (KeyedTree.obj output).SameBy f (.obj output')) :
      SameOutcome f (.ok output) (.ok output')
  | refuses (message message' : String) :
      SameOutcome f (.error (.domainValidation message)) (.error (.domainValidation message'))

section Publications

variable {l : Lowering}

/-- No path of an allowlist has a denied segment. -/
def Admitted (l : Lowering) (paths : List String) : Prop :=
  ∀ path ∈ paths, (segments path).any (isDeniedSegment l) = false

theorem foldlM_copyAllowed {source target : ObjectFields α} {paths : List String}
    (h : Admitted l paths) :
    paths.foldlM (copyAllowed l source) target = paths.foldlM (copyPath source) target := by
  induction paths generalizing target with
  | nil => rfl
  | cons path paths ih =>
    have hpath : copyAllowed l source target path = copyPath source target path := by
      unfold copyAllowed
      rw [h path List.mem_cons_self]
      rfl
    rw [List.foldlM_cons, List.foldlM_cons, hpath]
    congr 1
    funext written
    exact ih (fun other hother => h other (List.mem_cons_of_mem path hother))

theorem foldlM_copyAllowed_refuses {source target : ObjectFields α}
    (hsource : (KeyedTree.obj source).Distinct) (h : KeyedTree.Part (.obj target) (.obj source))
    {paths : List String} (hdenied : ¬ Admitted l paths) :
    ∃ message, paths.foldlM (copyAllowed l source) target = .error (.domainValidation message) := by
  induction paths generalizing target with
  | nil => exact absurd (by simp [Admitted]) hdenied
  | cons path paths ih =>
    rw [List.foldlM_cons]
    unfold copyAllowed
    split
    · exact ⟨_, rfl⟩
    · next hpath =>
      obtain ⟨written, hwritten, hpart, -⟩ := copyPath_part hsource h path
      have hrest : ¬ Admitted l paths := by
        intro hadmitted
        apply hdenied
        intro other hother
        rcases List.mem_cons.mp hother with rfl | hother
        · exact Bool.eq_false_iff.mpr hpath
        · exact hadmitted other hother
      obtain ⟨message, hrefused⟩ := ih hpart hrest
      exact ⟨message, by rw [hwritten]; exact hrefused⟩

/-- What a publication does: it refuses the allowlist, or makes a part of the source that agrees
    with it at every path, and refuses that part if it holds a denied key. -/
theorem allowlistedCopy_cases {source : ObjectFields α} (hsource : (KeyedTree.obj source).Distinct)
    (allowlist : List String) :
    (¬ Admitted l (Sorting.sortedSet allowlist) ∧
        ∃ message, allowlistedCopy l source allowlist = .error (.domainValidation message)) ∨
      (Admitted l (Sorting.sortedSet allowlist) ∧ ∃ output,
        (Sorting.sortedSet allowlist).foldlM (copyPath source) [] = .ok output ∧
        KeyedTree.Part (.obj output) (.obj source) ∧
        (∀ path ∈ allowlist, valueAt output path = valueAt source path) ∧
        ((∀ key ∈ (KeyedTree.obj output).keys, isDeniedSegment l key = false) ∧
            allowlistedCopy l source allowlist = .ok output ∨
          (∃ key ∈ (KeyedTree.obj output).keys, isDeniedSegment l key = true) ∧
            ∃ message, allowlistedCopy l source allowlist = .error (.domainValidation message))) := by
  have hempty : KeyedTree.Part (.obj []) (.obj source) := .empty source
  unfold allowlistedCopy
  by_cases hadmitted : Admitted l (Sorting.sortedSet allowlist)
  · right
    obtain ⟨output, hcopied, hpart, hagrees⟩ :=
      foldlM_copyPath hsource hempty (Sorting.sortedSet allowlist)
    refine ⟨hadmitted, output, hcopied, hpart, ?_, ?_⟩
    · exact fun path hpath => hagrees path (.inl (Sorting.mem_sortedSet.mpr hpath))
    · rw [foldlM_copyAllowed hadmitted, hcopied]
      by_cases hpublic : ∀ key ∈ (KeyedTree.obj output).keys, isDeniedSegment l key = false
      · left
        refine ⟨hpublic, ?_⟩
        show (do assertPublicPayload l output; return output) = Except.ok output
        rw [(assertPublicPayload_eq_ok).mpr hpublic]
        rfl
      · right
        refine ⟨by simpa using hpublic, ?_⟩
        have hrefused : assertPublicPayload l output ≠ .ok () :=
          fun hok => hpublic ((assertPublicPayload_eq_ok).mp hok)
        show ∃ message, (do assertPublicPayload l output; return output) =
          Except.error (.domainValidation message)
        unfold assertPublicPayload at hrefused ⊢
        simp only at hrefused ⊢
        split at hrefused
        · exact absurd rfl hrefused
        · next hpaths =>
          rw [if_neg hpaths]
          exact ⟨_, rfl⟩
  · left
    obtain ⟨message, hrefused⟩ := foldlM_copyAllowed_refuses hsource hempty hadmitted
    exact ⟨hadmitted, message, by rw [hrefused]; rfl⟩

theorem allowlistedCopy_alike {source source' : ObjectFields α}
    (hsource : (KeyedTree.obj source).Distinct) (hsource' : (KeyedTree.obj source').Distinct)
    {allowlist : List String} (h : ∀ path ∈ allowlist, AlikeAt f source source' path) :
    SameOutcome f (allowlistedCopy l source allowlist) (allowlistedCopy l source' allowlist) := by
  rcases allowlistedCopy_cases (l := l) hsource allowlist with
    ⟨hrefused, message, heq⟩ | ⟨hadmitted, output, hcopied, -, -, hresult⟩
  · rcases allowlistedCopy_cases (l := l) hsource' allowlist with
      ⟨-, message', heq'⟩ | ⟨hadmitted, -⟩
    · rw [heq, heq']
      exact .refuses message message'
    · exact absurd hadmitted hrefused
  · rcases allowlistedCopy_cases (l := l) hsource' allowlist with
      ⟨hrefused, -⟩ | ⟨-, output', hcopied', -, -, hresult'⟩
    · exact absurd hadmitted hrefused
    · have hsame : (KeyedTree.obj output).SameBy f (.obj output') :=
        foldlM_alike hsource hsource' (.empty source) (.empty source') rfl
          (fun path hpath => h path (Sorting.mem_sortedSet.mp hpath)) hcopied hcopied'
      -- equal copies have the same keys, so both are public or neither is
      rcases hresult with ⟨hpublic, heq⟩ | ⟨⟨key, hkey, hdenied⟩, message, heq⟩
      · rcases hresult' with ⟨-, heq'⟩ | ⟨⟨key, hkey, hdenied⟩, -⟩
        · rw [heq, heq']
          exact .returns hsame
        · rw [hpublic key (hsame.mem_keys.mpr hkey)] at hdenied
          cases hdenied
      · rcases hresult' with ⟨hpublic, -⟩ | ⟨-, message', heq'⟩
        · rw [hpublic key (hsame.mem_keys.mp hkey)] at hdenied
          cases hdenied
        · rw [heq, heq']
          exact .refuses message message'

theorem allowlistedCopy_again {source output : ObjectFields α}
    (hsource : (KeyedTree.obj source).Distinct) {allowlist : List String}
    (h : allowlistedCopy l source allowlist = .ok output) :
    (∀ key ∈ (KeyedTree.obj output).keys, isDeniedSegment l key = false) ∧
      allowlistedCopy l output allowlist = .ok output := by
  rcases allowlistedCopy_cases (l := l) hsource allowlist with
    ⟨-, message, heq⟩ | ⟨hadmitted, made, hcopied, hpart, hagrees, hresult⟩
  · cases h.symm.trans heq
  rcases hresult with ⟨hpublic, heq⟩ | ⟨-, message, heq⟩
  · cases h.symm.trans heq
    refine ⟨hpublic, ?_⟩
    have hsame : (Sorting.sortedSet allowlist).foldlM (copyPath output) [] = .ok output := by
      rw [← hcopied]
      exact foldlM_copyPath_congr (fun path hpath => hagrees path (Sorting.mem_sortedSet.mp hpath))
    unfold allowlistedCopy
    rw [foldlM_copyAllowed hadmitted, hsame]
    show (do assertPublicPayload l output; return output) = Except.ok output
    rw [(assertPublicPayload_eq_ok).mpr hpublic]
    rfl
  · cases h.symm.trans heq

/-- A publication depends on the values at the allowlisted paths alone: on two sources that are alike
    there it returns equal objects, or refuses both. What it returns holds no denied key, and
    publishing it again returns it. -/
theorem publication_allowlisted
    {publish : ObjectFields α → List String → Except PublicationError (ObjectFields α)}
    (hpublish : (publish = fun source allowlist => sanitizeRequirementBrief l source allowlist) ∨
      publish = fun source allowlist => publishSeilPack l source allowlist)
    {source : ObjectFields α} (hsource : (KeyedTree.obj source).Distinct) (allowlist : List String) :
    (∀ source' : ObjectFields α, (KeyedTree.obj source').Distinct →
        (∀ path ∈ allowlist, AlikeAt f source source' path) →
          SameOutcome f (publish source allowlist) (publish source' allowlist)) ∧
      ∀ output, publish source allowlist = .ok output →
        (∀ key ∈ (KeyedTree.obj output).keys, isDeniedSegment l key = false) ∧
          publish output allowlist = .ok output := by
  have hcopy : publish = allowlistedCopy l := by
    rcases hpublish with rfl | rfl <;> rfl
  subst hcopy
  constructor
  · intro source' hsource' h
    exact allowlistedCopy_alike hsource hsource' h
  · intro output h
    exact allowlistedCopy_again hsource h

end Publications

theorem lowerAscii_lowerAscii (text : String) :
    Runtime.lowerAscii (Runtime.lowerAscii text) = Runtime.lowerAscii text := by
  unfold Runtime.lowerAscii
  rw [String.toList_ofList, List.map_map]
  congr 1
  exact List.map_congr_left (fun c _ => Runtime.lower_lower c)

/-- `str.lower` on ASCII text -/
def Lowering.ascii : Lowering :=
  ⟨Runtime.lowerAscii, lowerAscii_lowerAscii, fun _ _ => rfl⟩

/-- A brief -/
def sampleBrief : ObjectFields Nat :=
  [("region", .leaf 1), ("hidden_budget", .leaf 2),
    ("desired_outcome", .obj [("metric", .leaf 3), ("owner", .leaf 4)])]

/-- The brief with another budget and owner, and with its keys in another order -/
def otherBrief : ObjectFields Nat :=
  [("desired_outcome", .obj [("metric", .leaf 3)]), ("region", .leaf 1), ("hidden_budget", .leaf 5)]

def sampleAllowlist : List String :=
  ["region", "desired_outcome.metric", "deadline"]

theorem publication_allowlisted_sample :
    SameOutcome (id : Nat → Nat) (sanitizeRequirementBrief .ascii sampleBrief sampleAllowlist)
        (sanitizeRequirementBrief .ascii otherBrief sampleAllowlist) ∧
      ∃ output, sanitizeRequirementBrief .ascii sampleBrief sampleAllowlist = .ok output ∧
        sanitizeRequirementBrief .ascii output sampleAllowlist = .ok output := by
  have hbrief : (KeyedTree.obj sampleBrief).Distinct := by
    simp [sampleBrief, KeyedTree.Distinct, KeyedTree.DistinctFields]
  have hother : (KeyedTree.obj otherBrief).Distinct := by
    simp [otherBrief, KeyedTree.Distinct, KeyedTree.DistinctFields]
  have hpaths : ∀ path ∈ sampleAllowlist, AlikeAt (id : Nat → Nat) sampleBrief otherBrief path := by
    have hsegments : ["region", "desired_outcome.metric", "deadline"].map segments =
        [["region"], ["desired_outcome", "metric"], ["deadline"]] := by decide +kernel
    simp only [List.map_cons, List.map_nil, List.cons.injEq, and_true] at hsegments
    obtain ⟨hregion, hmetric, hdeadline⟩ := hsegments
    unfold AlikeAt valueAt
    simp only [sampleAllowlist, List.forall_mem_cons, hregion, hmetric, hdeadline]
    exact ⟨.some rfl, .some rfl, .none, by simp⟩
  obtain ⟨halike, hagain⟩ := @publication_allowlisted Nat Nat id .ascii
    (fun source allowlist => sanitizeRequirementBrief .ascii source allowlist) (.inl rfl)
    sampleBrief hbrief sampleAllowlist
  have hreturns : (sanitizeRequirementBrief .ascii sampleBrief sampleAllowlist).isOk = true := by
    decide +kernel
  obtain ⟨output, hok⟩ := Raising.exists_of_isOk hreturns
  exact ⟨halike otherBrief hother hpaths, output, hok, (hagain output hok).2⟩

/-! ## Named children -/

/-- The children of a field that the default allowlist names -/
def namedChildren (parent : String) : List String :=
  defaultRequirementBriefAllowlist.filterMap (fun path =>
    match segments path with
    | [field, child] => if field = parent then some child else none
    | _ => none)

/-- Where the allowlist names children of a field, an object there has no other ones. -/
def OnlyNamedChildren (fields : ObjectFields α) : Prop :=
  ∀ parent, namedChildren parent ≠ [] → ∀ children, valueAt fields parent = some (.obj children) →
    ∀ child ∈ children.map Prod.fst, child ∈ namedChildren parent

theorem mem_allowlist_of_namedChildren {parent : String} (h : namedChildren parent ≠ []) :
    parent ∈ defaultRequirementBriefAllowlist := by
  have hparents : (defaultRequirementBriefAllowlist.all (fun path =>
      match segments path with
      | [field, _] => defaultRequirementBriefAllowlist.contains field
      | _ => true)) = true := by
    decide +kernel
  obtain ⟨child, hchild⟩ := List.exists_mem_of_ne_nil _ h
  obtain ⟨path, hpath, hnamed⟩ := List.mem_filterMap.mp hchild
  have hlisted := List.all_eq_true.mp hparents path hpath
  split at hnamed
  next field child' hsegments =>
    rw [hsegments] at hlisted
    split at hnamed
    next hfield =>
      rw [← hfield]
      exact List.contains_iff_mem.mp hlisted
    · cases hnamed
  · cases hnamed

theorem valueAt_published {l : Lowering} {source output : ObjectFields α}
    (hsource : (KeyedTree.obj source).Distinct) (h : sanitizeRequirementBrief l source = .ok output)
    {path : String} (hpath : path ∈ defaultRequirementBriefAllowlist) :
    valueAt output path = valueAt source path := by
  unfold sanitizeRequirementBrief at h
  rcases allowlistedCopy_cases hsource defaultRequirementBriefAllowlist with
    ⟨-, message, hrefused⟩ | ⟨-, made, -, -, hagrees, ⟨-, hmade⟩ | ⟨-, message, hrefused⟩⟩
  · cases h.symm.trans hrefused
  · cases h.symm.trans hmade
    exact hagrees path hpath
  · cases h.symm.trans hrefused

/-- A published brief has named children only exactly if the brief has: the field itself is listed, so
    it is copied whole, and with it the children that the list does not name. -/
theorem onlyNamedChildren_published {l : Lowering} {source output : ObjectFields α}
    (hsource : (KeyedTree.obj source).Distinct) (h : sanitizeRequirementBrief l source = .ok output) :
    OnlyNamedChildren output ↔ OnlyNamedChildren source := by
  unfold OnlyNamedChildren
  refine forall_congr' (fun parent => forall_congr' (fun hnamed => ?_))
  rw [valueAt_published hsource h (mem_allowlist_of_namedChildren hnamed)]

/-- A denied segment, by its characters -/
def isDeniedText (text : List Char) : Bool :=
  deniedSegments.any (fun segment => segment.toList == text) ||
    deniedMarkers.any (fun marker => text.tails.any (fun rest => marker.toList.isPrefixOf rest))

theorem isDeniedSegment_ascii {segment : String}
    (h : (segment.toList.all (fun c => !c.isUpper)) = true) :
    isDeniedSegment .ascii segment = isDeniedText segment.toList := by
  have hlower : Lowering.ascii.lower segment = segment := by
    show Runtime.lowerAscii segment = segment
    unfold Runtime.lowerAscii
    rw [List.map_congr_left (g := id), List.map_id, String.ofList_toList]
    intro c hc
    have hsmall := List.all_eq_true.mp h c hc
    simp_all
  have hsegment : decide (segment ∈ deniedSegments) =
      deniedSegments.any (fun denied => denied.toList == segment.toList) := by
    rw [Bool.eq_iff_iff, decide_eq_true_iff, List.any_eq_true]
    simp only [beq_iff_eq, String.toList_inj, exists_eq_right]
  unfold isDeniedSegment isDeniedText
  rw [hlower, ← hsegment]
  rfl

theorem admitted_default : Admitted .ascii (Sorting.sortedSet defaultRequirementBriefAllowlist) := by
  have hpublic : (defaultRequirementBriefAllowlist.all (fun path => (path.toList.splitOn '.').all
      (fun part => part.all (fun c => !c.isUpper) && !isDeniedText part))) = true := by
    decide +kernel
  intro path hpath
  have hparts := List.all_eq_true.mp hpublic path (Sorting.mem_sortedSet.mp hpath)
  unfold segments
  rw [List.any_map, List.any_eq_false]
  intro part hpart
  obtain ⟨hsmall, hpublic⟩ := Bool.and_eq_true_iff.mp (List.all_eq_true.mp hparts part hpart)
  rw [Function.comp_apply, isDeniedSegment_ascii (by rw [String.toList_ofList]; exact hsmall),
    String.toList_ofList]
  simpa using hpublic

theorem exists_published {source : ObjectFields α} (hsource : (KeyedTree.obj source).Distinct)
    (hkeys : ∀ key ∈ (KeyedTree.obj source).keys,
      (key.toList.all (fun c => !c.isUpper) && !isDeniedText key.toList) = true) :
    ∃ output, sanitizeRequirementBrief .ascii source = .ok output := by
  rcases allowlistedCopy_cases hsource defaultRequirementBriefAllowlist with
    ⟨hrefused, -⟩ | ⟨-, output, -, hpart, -, ⟨-, houtput⟩ | ⟨⟨key, hkey, hdenied⟩, -⟩⟩
  · exact absurd admitted_default hrefused
  · exact ⟨output, houtput⟩
  · obtain ⟨hsmall, hpublic⟩ := Bool.and_eq_true_iff.mp (hkeys key (hpart.mem_keys hkey))
    rw [isDeniedSegment_ascii hsmall] at hdenied
    simp [hdenied] at hpublic

/-- A brief with a child of the desired outcome that the allowlist does not name -/
def ownedBrief : ObjectFields Nat :=
  [("region", .leaf 1), ("desired_outcome", .obj [("metric", .leaf 3), ("owner", .leaf 4)])]

/-- The brief without that child -/
def plainBrief : ObjectFields Nat :=
  [("region", .leaf 1), ("desired_outcome", .obj [("metric", .leaf 3)])]

theorem onlyNamedChildren_published_sample :
    ∃ output, sanitizeRequirementBrief .ascii plainBrief = .ok output ∧
      (OnlyNamedChildren output ↔ OnlyNamedChildren plainBrief) := by
  have hbrief : (KeyedTree.obj plainBrief).Distinct := by
    simp [plainBrief, KeyedTree.Distinct, KeyedTree.DistinctFields]
  obtain ⟨output, hok⟩ := exists_published hbrief (by decide)
  exact ⟨output, hok, onlyNamedChildren_published hbrief hok⟩

/-- The child is published. -/
theorem unnamed_child_published :
    ∃ output, sanitizeRequirementBrief .ascii ownedBrief = .ok output ∧ ¬ OnlyNamedChildren output := by
  have hbrief : (KeyedTree.obj ownedBrief).Distinct := by
    simp [ownedBrief, KeyedTree.Distinct, KeyedTree.DistinctFields]
  obtain ⟨output, hok⟩ := exists_published hbrief (by decide)
  refine ⟨output, hok, ?_⟩
  intro h
  have hnamed : namedChildren "desired_outcome" = ["metric", "target", "operator", "checkpoint_days"] := by
    decide
  have hsegments : segments "desired_outcome" = ["desired_outcome"] := by decide
  have hvalue : valueAt output "desired_outcome" =
      some (.obj [("metric", .leaf 3), ("owner", .leaf 4)]) := by
    rw [valueAt_published hbrief hok (by simp [defaultRequirementBriefAllowlist])]
    unfold valueAt
    rw [hsegments]
    rfl
  have howner := h "desired_outcome" (by simp [hnamed]) _ hvalue "owner" (by simp)
  rw [hnamed] at howner
  simp at howner

end Domain
