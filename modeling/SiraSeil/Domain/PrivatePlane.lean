-- SUMMARY: The two private-plane filters on one payload tree: what each refuses, and exactly when they agree.
import SiraSeil.Domain.ExchangeContracts
import Mathlib.Data.List.Infix

/-!
# The private plane

A command of a party passes `_reject_private_fields` and a contract of the
exchange passes `_assert_public_tree`. Both walk the whole tree and refuse it at a
name that holds a marker of private data. The commands read the folded name as it
stands. The contracts read its hyphens as underscores first, and their marker for
private notes is in the singular, so they refuse more.
-/

namespace Domain

/-! ## The names of a tree -/

mutual
/-- The names of the fields of a tree, at any depth. -/
def Value.keys : Value → List String
  | .atom _ => []
  | .seq xs => Value.seqKeys xs
  | .obj fields => Value.fieldKeys fields

def Value.seqKeys : List Value → List String
  | [] => []
  | x :: xs => x.keys ++ Value.seqKeys xs

def Value.fieldKeys : List (String × Value) → List String
  | [] => []
  | (name, v) :: fields => name :: (v.keys ++ Value.fieldKeys fields)
end

section Names

variable {refused : String → Bool}

mutual
theorem Value.names_iff : (v : Value) → (v.names refused = true ↔ ∃ key ∈ v.keys, refused key)
  | .atom _ => by simp [Value.names, Value.keys]
  | .seq xs => by simpa [Value.names, Value.keys] using Value.namesSeq_iff xs
  | .obj fields => by simpa [Value.names, Value.keys] using Value.namesFields_iff fields

theorem Value.namesSeq_iff : (xs : List Value) →
    (Value.namesSeq refused xs = true ↔ ∃ key ∈ Value.seqKeys xs, refused key)
  | [] => by simp [Value.namesSeq, Value.seqKeys]
  | x :: xs => by
    simp only [Value.namesSeq, Value.seqKeys, Bool.or_eq_true, List.mem_append, or_and_right,
      exists_or]
    exact or_congr (Value.names_iff x) (Value.namesSeq_iff xs)

theorem Value.namesFields_iff : (fields : List (String × Value)) →
    (Value.namesFields refused fields = true ↔ ∃ key ∈ Value.fieldKeys fields, refused key)
  | [] => by simp [Value.namesFields, Value.fieldKeys]
  | (name, v) :: fields => by
    simp only [Value.namesFields, Value.fieldKeys, Bool.or_eq_true, List.mem_cons, List.mem_append,
      or_and_right, exists_or, exists_eq_left, or_assoc]
    exact or_congr Iff.rfl (or_congr (Value.names_iff v) (Value.namesFields_iff fields))
end

theorem Value.namesFields_eq_false {fields : List (String × Value)} :
    Value.namesFields refused fields = false ↔
      ∀ key ∈ Value.fieldKeys fields, refused key = false := by
  have hnames : Value.namesFields refused fields = true ↔
      ∃ key ∈ Value.fieldKeys fields, refused key := Value.namesFields_iff fields
  simpa using not_congr hnames

end Names

/-! ## Markers in a name -/

theorem hasPart_iff {text part : String} : hasPart text part = true ↔ part.toList <:+: text.toList := by
  unfold hasPart
  simp only [List.any_eq_true, List.mem_tails, List.isPrefixOf_iff_prefix,
    List.infix_iff_prefix_suffix]
  exact exists_congr fun _ => and_comm

/-- A hyphen reads as an underscore. -/
def underscore (c : Char) : Char :=
  if c = '-' then '_' else c

/-- The markers of `_private_key`. -/
def privateMarkers : List String :=
  ["hidden_budget", "reservation_value", "seller_floor", "private_note", "private_source",
    "buyer_private", "seller_private"]

/-- The text spells the marker with a hyphen for some of its underscores. -/
def Hyphenated (text marker : String) : Prop :=
  ∃ spelling, spelling <:+: text.toList ∧ spelling ≠ marker.toList ∧
    spelling.map underscore = marker.toList

theorem privateKey_iff {rt : Runtime} {key : String} :
    privateKey rt key = true ↔
      ∃ marker ∈ privateMarkers,
        hasPart (rt.casefold key) marker = true ∨ Hyphenated (rt.casefold key) marker := by
  have hplain : ∀ marker ∈ privateMarkers, marker.toList.map underscore = marker.toList := by
    decide
  show privateMarkers.any (hasPart (String.ofList ((rt.casefold key).toList.map underscore))) = true
    ↔ _
  simp only [List.any_eq_true, hasPart_iff, String.toList_ofList, List.infix_map_iff]
  refine exists_congr fun marker => and_congr_right fun hmarker => ⟨?_, ?_⟩
  · rintro ⟨spelling, hwithin, hspells⟩
    by_cases hsame : spelling = marker.toList
    · exact .inl (hsame ▸ hwithin)
    · exact .inr ⟨spelling, hwithin, hsame, hspells.symm⟩
  · rintro (hwithin | ⟨spelling, hwithin, -, hspells⟩)
    · exact ⟨marker.toList, hwithin, (hplain marker hmarker).symm⟩
    · exact ⟨spelling, hwithin, hspells.symm⟩

theorem privateKey_of_part {rt : Runtime} {key part : String} (hpart : part ∈ privateParts)
    (hholds : hasPart (rt.casefold key) part = true) : privateKey rt key = true := by
  have hmarked : ∀ part ∈ privateParts, ∃ marker ∈ privateMarkers,
      hasPart part marker = true := by decide
  obtain ⟨marker, hmarker, hinside⟩ := hmarked part hpart
  refine privateKey_iff.mpr ⟨marker, hmarker, .inl (hasPart_iff.mpr ?_)⟩
  exact (hasPart_iff.mp hinside).trans (hasPart_iff.mp hholds)

/-! ## The two filters -/

section Filters

variable {rt : Runtime} {payload : Fields}

theorem rejectPrivateFields_eq_ok :
    rejectPrivateFields rt payload = .ok () ↔
      ∀ key ∈ Value.fieldKeys payload, ∀ part ∈ privateParts,
        hasPart (rt.casefold key) part = false := by
  unfold rejectPrivateFields
  split
  · next hnamed =>
    simp only [reduceCtorEq, false_iff]
    obtain ⟨key, hkey, hrefused⟩ := (Value.namesFields_iff payload).mp hnamed
    obtain ⟨part, hpart, hholds⟩ := List.any_eq_true.mp hrefused
    intro hclean
    simp [hclean key hkey part hpart] at hholds
  · next hclean =>
    simp only [Bool.not_eq_true] at hclean
    simpa using Value.namesFields_eq_false.mp hclean

theorem assertPublicTree_eq_ok :
    assertPublicTree rt payload = .ok () ↔
      ∀ key ∈ Value.fieldKeys payload, privateKey rt key = false := by
  unfold assertPublicTree
  split
  · next hnamed =>
    simp only [reduceCtorEq, false_iff]
    obtain ⟨key, hkey, hprivate⟩ := (Value.namesFields_iff payload).mp hnamed
    intro hpublic
    simp [hpublic key hkey] at hprivate
  · next hpublic => simpa using Value.namesFields_eq_false.mp (Bool.not_eq_true _ ▸ hpublic)

theorem rejectPrivateFields_of_public (h : assertPublicTree rt payload = .ok ()) :
    rejectPrivateFields rt payload = .ok () := by
  refine rejectPrivateFields_eq_ok.mpr fun key hkey part hpart => ?_
  by_contra hholds
  have hprivate := privateKey_of_part hpart (Bool.not_eq_false _ ▸ hholds)
  simp [assertPublicTree_eq_ok.mp h key hkey] at hprivate

/-- The filters agree on a payload exactly when some name in it holds a part as the
    commands spell it, or no name holds a singular private note or a hyphenated marker. -/
theorem filters_agree_iff (rt : Runtime) (payload : Fields) :
    (rejectPrivateFields rt payload = .ok () ↔ assertPublicTree rt payload = .ok ()) ↔
      (∃ key ∈ Value.fieldKeys payload, ∃ part ∈ privateParts,
        hasPart (rt.casefold key) part = true) ∨
      ∀ key ∈ Value.fieldKeys payload, hasPart (rt.casefold key) "private_note" = false ∧
        ∀ marker ∈ privateMarkers, ¬ Hyphenated (rt.casefold key) marker := by
  by_cases hparts : ∃ key ∈ Value.fieldKeys payload, ∃ part ∈ privateParts,
      hasPart (rt.casefold key) part = true
  · -- both filters refuse the payload
    have hrejects : rejectPrivateFields rt payload ≠ .ok () := by
      obtain ⟨key, hkey, part, hpart, hholds⟩ := hparts
      intro haccepts
      simp [rejectPrivateFields_eq_ok.mp haccepts key hkey part hpart] at hholds
    have hasserts := mt rejectPrivateFields_of_public hrejects
    simp [hparts, hrejects, hasserts]
  · have haccepts : rejectPrivateFields rt payload = .ok () := by
      refine rejectPrivateFields_eq_ok.mpr fun key hkey part hpart => ?_
      by_contra hholds
      exact hparts ⟨key, hkey, part, hpart, Bool.not_eq_false _ ▸ hholds⟩
    simp only [haccepts, true_iff, hparts, false_or, assertPublicTree_eq_ok]
    -- with no part in it, a name is private for what only the contracts read
    have honly : ∀ marker ∈ privateMarkers, marker ∈ privateParts ∨ marker = "private_note" := by
      decide
    refine forall₂_congr fun key hkey => ⟨?_, ?_⟩
    · intro hpublic
      have hno := mt privateKey_iff.mpr (Bool.not_eq_true _ ▸ hpublic)
      refine ⟨?_, fun marker hmarker hspells => hno ⟨marker, hmarker, .inr hspells⟩⟩
      by_contra hnote
      exact hno ⟨"private_note", by decide, .inl (Bool.not_eq_false _ ▸ hnote)⟩
    · rintro ⟨hnote, hspelled⟩
      by_contra hprivate
      obtain ⟨marker, hmarker, hholds | hspells⟩ :=
        privateKey_iff.mp (Bool.not_eq_false _ ▸ hprivate)
      · rcases honly marker hmarker with hpart | rfl
        · exact hparts ⟨key, hkey, marker, hpart, hholds⟩
        · simp [hnote] at hholds
      · exact hspelled marker hmarker hspells

end Filters

/-- A note in the singular and a hyphenated budget pass the commands alone. -/
theorem private_note_splits_the_filters :
    (rejectPrivateFields .ascii [("private_note", .str "walk away at 90")] = .ok () ∧
      assertPublicTree .ascii [("private_note", .str "walk away at 90")] ≠ .ok ()) ∧
    rejectPrivateFields .ascii [("terms", .seq [.obj [("hidden-budget", .nat 120)]])] = .ok () ∧
      assertPublicTree .ascii [("terms", .seq [.obj [("hidden-budget", .nat 120)]])] ≠ .ok () := by
  decide

end Domain
