-- SUMMARY: `canonical_json` over typed values: the texts of two values agree exactly when their decimals round alike, and when that is equality of the values.
import SiraSeil.Domain.Decimals
import SiraSeil.Domain.JsonText
import SiraSeil.Library.Raising

/-!
# Canonical JSON

`_normalize` and `canonical_json` of `domain/hashing.py` on mappings, sequences, strings, booleans,
null, integers and finite decimals. `rfc8785.dumps` is a parameter.
-/

namespace Domain

open Raising

namespace CanonicalJson

inductive CanonicalError
  | domainValidation (message : String)
  | overflow
  deriving DecidableEq, Repr

variable {δ : Type}

/-! ## Normalization -/

/-- What `_normalize` makes of a leaf; `normalize` of a decimal may raise `Overflow`. -/
def normalizeLeaf : Leaf PyDecimal → Except CanonicalError (Leaf Empty)
  | .null => .ok .null
  | .bool b => .ok (.bool b)
  | .int n => .ok (.int n)
  | .str s => .ok (.str s)
  | .decimal d =>
    match d.text with
    | some text => .ok (.str (PyStr.ofChars text))
    | none => .error .overflow

mutual
/-- `_normalize` -/
def normalize (excludedFields : List PyStr) : TypedJson PyDecimal → Except CanonicalError Json
  | .leaf a => .leaf <$> normalizeLeaf a
  | .seq items => .seq <$> normalizeSeq excludedFields items
  | .obj fields => .obj <$> normalizeFields excludedFields fields

def normalizeSeq (excludedFields : List PyStr) :
    List (TypedJson PyDecimal) → Except CanonicalError (List Json)
  | [] => .ok []
  | t :: items => do
    let item ← normalize excludedFields t
    let rest ← normalizeSeq excludedFields items
    .ok (item :: rest)

def normalizeFields (excludedFields : List PyStr) :
    List (PyStr × TypedJson PyDecimal) → Except CanonicalError (List (PyStr × Json))
  | [] => .ok []
  | (key, t) :: fields =>
    if key ∈ excludedFields then normalizeFields excludedFields fields
    else do
      let item ← normalize excludedFields t
      let rest ← normalizeFields excludedFields fields
      .ok ((key, item) :: rest)
end

/-- `canonical_json`, over `rfc8785.dumps` with the message of its `CanonicalizationError` -/
def canonicalJson (dumps : Json → Except String PyStr) (excludedFields : List PyStr)
    (value : TypedJson PyDecimal) : Except CanonicalError PyStr := do
  let normalized ← normalize excludedFields value
  (dumps normalized).mapError
    (fun error => .domainValidation ("RFC 8785 canonicalization failed: " ++ error))

/-- What `rfc8785.dumps` promises: it takes the values of I-JSON, it does not see the order of
    fields, and values it gives the same text are the same up to that order. -/
structure Faithful (dumps : Json → Except String PyStr) : Prop where
  accepts : ∀ t, t.Distinct → ((∃ text, dumps t = .ok text) ↔ TypedJson.Encodable t)
  same : ∀ t u, t.Distinct → u.Distinct → t.sorted = u.sorted → dumps t = dumps u
  injective : ∀ t u text, t.Distinct → u.Distinct → dumps t = .ok text → dumps u = .ok text →
    t.sorted = u.sorted

/-! ## Values without excluded fields -/

/-- The leaf of the JSON value, where its decimal does not overflow -/
def jsonLeaf : Leaf PyDecimal → Leaf Empty
  | .null => .null
  | .bool b => .bool b
  | .int n => .int n
  | .str s => .str s
  | .decimal d => .str (PyStr.ofChars (d.text.getD []))

/-- A decimal that does not overflow the context; any other leaf -/
def Fits : Leaf PyDecimal → Prop
  | .decimal d => d.rounded ≠ none
  | _ => True

/-- The same shape, with leaves of the same kinds -/
def SameShape (t u : TypedJson PyDecimal) : Prop := t.SameBy Leaf.kind u

/-- Equal up to the order of fields, with decimals compared as numbers -/
def SameValue (t u : TypedJson PyDecimal) : Prop := t.SameBy (Leaf.mapDecimal PyDecimal.value) u

/-- Equal up to the order of fields once every decimal is rounded to the context -/
def RoundedAlike (t u : TypedJson PyDecimal) : Prop := t.SameBy (Leaf.mapDecimal PyDecimal.rounded) u

theorem Fits.text {d : PyDecimal} (h : Fits (.decimal d)) : ∃ text, d.text = some text := by
  refine Option.ne_none_iff_exists'.mp ?_
  rw [PyDecimal.text_eq_rounded]
  simpa [Fits] using h

theorem normalizeLeaf_of_fits {a : Leaf PyDecimal} (h : Fits a) :
    normalizeLeaf a = .ok (jsonLeaf a) := by
  cases a with
  | decimal d =>
    obtain ⟨text, htext⟩ := h.text
    simp only [normalizeLeaf, jsonLeaf, htext, Option.getD_some]
  | _ => rfl

theorem normalizeLeaf_of_not_fits {a : Leaf PyDecimal} (h : ¬ Fits a) :
    normalizeLeaf a = .error .overflow := by
  cases a with
  | decimal d =>
    have hnone : d.rounded = none := not_not.mp h
    have htext : d.text = none := by rw [PyDecimal.text_eq_rounded, hnone, Option.map_none]
    simp only [normalizeLeaf, htext]
  | _ => exact absurd trivial h

mutual
theorem normalize_of_fits : (t : TypedJson PyDecimal) → (∀ a ∈ t.leaves, Fits a) →
    normalize [] t = .ok (t.map jsonLeaf)
  | .leaf a, h => by
    simp only [normalize, normalizeLeaf_of_fits (h a (by simp [KeyedTree.leaves]))]
    rfl
  | .seq items, h => by
    simp only [normalize, normalizeSeq_of_fits items h]
    rfl
  | .obj fields, h => by
    simp only [normalize, normalizeFields_of_fits fields h]
    rfl

theorem normalizeSeq_of_fits : (items : List (TypedJson PyDecimal)) →
    (∀ a ∈ KeyedTree.seqLeaves items, Fits a) →
      normalizeSeq [] items = .ok (KeyedTree.mapSeq jsonLeaf items)
  | [], _ => rfl
  | t :: items, h => by
    rw [normalizeSeq, normalize_of_fits t (fun a ha => h a (List.mem_append_left _ ha)),
      normalizeSeq_of_fits items (fun a ha => h a (List.mem_append_right _ ha))]
    rfl

theorem normalizeFields_of_fits : (fields : List (PyStr × TypedJson PyDecimal)) →
    (∀ a ∈ KeyedTree.fieldLeaves fields, Fits a) →
      normalizeFields [] fields = .ok (KeyedTree.mapFields jsonLeaf fields)
  | [], _ => rfl
  | (key, t) :: fields, h => by
    rw [normalizeFields, if_neg List.not_mem_nil,
      normalize_of_fits t (fun a ha => h a (List.mem_append_left _ ha)),
      normalizeFields_of_fits fields (fun a ha => h a (List.mem_append_right _ ha))]
    rfl
end

mutual
/-- One decimal that does not fit is enough for `Overflow`. -/
theorem normalize_of_not_fits : (t : TypedJson PyDecimal) → (∃ a ∈ t.leaves, ¬ Fits a) →
    normalize [] t = .error .overflow
  | .leaf a, h => by
    obtain ⟨b, hb, hfits⟩ := h
    obtain rfl := List.mem_singleton.mp hb
    simp only [normalize, normalizeLeaf_of_not_fits hfits]
    rfl
  | .seq items, h => by
    simp only [normalize, normalizeSeq_of_not_fits items h]
    rfl
  | .obj fields, h => by
    simp only [normalize, normalizeFields_of_not_fits fields h]
    rfl

theorem normalizeSeq_of_not_fits : (items : List (TypedJson PyDecimal)) →
    (∃ a ∈ KeyedTree.seqLeaves items, ¬ Fits a) → normalizeSeq [] items = .error .overflow
  | [], ⟨_, ha, _⟩ => by cases ha
  | t :: items, h => by
    rw [normalizeSeq]
    by_cases ht : ∀ a ∈ t.leaves, Fits a
    · have hitems : ∃ a ∈ KeyedTree.seqLeaves items, ¬ Fits a := by
        obtain ⟨a, ha, hfits⟩ := h
        exact ⟨a, (List.mem_append.mp ha).resolve_left (fun hmem => hfits (ht a hmem)), hfits⟩
      rw [normalize_of_fits t ht, normalizeSeq_of_not_fits items hitems]
      rfl
    · push Not at ht
      rw [normalize_of_not_fits t ht]
      rfl

theorem normalizeFields_of_not_fits : (fields : List (PyStr × TypedJson PyDecimal)) →
    (∃ a ∈ KeyedTree.fieldLeaves fields, ¬ Fits a) →
      normalizeFields [] fields = .error .overflow
  | [], ⟨_, ha, _⟩ => by cases ha
  | (key, t) :: fields, h => by
    rw [normalizeFields, if_neg List.not_mem_nil]
    by_cases ht : ∀ a ∈ t.leaves, Fits a
    · have hfields : ∃ a ∈ KeyedTree.fieldLeaves fields, ¬ Fits a := by
        obtain ⟨a, ha, hfits⟩ := h
        exact ⟨a, (List.mem_append.mp ha).resolve_left (fun hmem => hfits (ht a hmem)), hfits⟩
      rw [normalize_of_fits t ht, normalizeFields_of_not_fits fields hfields]
      rfl
    · push Not at ht
      rw [normalize_of_not_fits t ht]
      rfl
end

theorem canonicalJson_of_fits {dumps : Json → Except String PyStr} {t : TypedJson PyDecimal}
    (h : ∀ a ∈ t.leaves, Fits a) : canonicalJson dumps [] t = (dumps (t.map jsonLeaf)).mapError
      (fun error => .domainValidation ("RFC 8785 canonicalization failed: " ++ error)) := by
  unfold canonicalJson
  rw [normalize_of_fits t h]
  rfl

theorem canonicalJson_of_not_fits {dumps : Json → Except String PyStr} {t : TypedJson PyDecimal}
    (h : ¬ ∀ a ∈ t.leaves, Fits a) : canonicalJson dumps [] t = .error .overflow := by
  unfold canonicalJson
  push Not at h
  rw [normalize_of_not_fits t h]
  rfl

theorem jsonLeaf_encodable {a : Leaf PyDecimal} : (jsonLeaf a).Encodable ↔ a.Encodable := by
  cases a with
  | decimal d =>
    refine iff_of_true (fun c hc => ?_) trivial
    obtain ⟨d, -, rfl⟩ := List.mem_map.mp hc
    exact PyStr.scalar_code d
  | _ => exact Iff.rfl

theorem encodable_map {t : TypedJson PyDecimal} :
    TypedJson.Encodable (t.map jsonLeaf) ↔ TypedJson.Encodable t := by
  unfold TypedJson.Encodable
  rw [KeyedTree.leaves_map, KeyedTree.keys_map]
  simp only [List.forall_mem_map, jsonLeaf_encodable]

/-! ## Leaves that agree -/

theorem rounded_of_jsonLeaf {a b : Leaf PyDecimal} (ha : Fits a) (hb : Fits b)
    (hkind : a.kind = b.kind) (h : jsonLeaf a = jsonLeaf b) :
    a.mapDecimal PyDecimal.rounded = b.mapDecimal PyDecimal.rounded := by
  cases a <;> cases b <;> try cases hkind
  case decimal.decimal x y =>
    obtain ⟨xtext, hx⟩ := ha.text
    obtain ⟨ytext, hy⟩ := hb.text
    simp only [jsonLeaf, hx, hy, Option.getD_some, Leaf.str.injEq] at h
    have htext : x.text = y.text := by rw [hx, hy, PyStr.ofChars_injective h]
    exact congrArg Leaf.decimal (PyDecimal.text_eq_iff.mp htext)
  all_goals
    cases h
    rfl

theorem jsonLeaf_of_rounded {a b : Leaf PyDecimal}
    (h : a.mapDecimal PyDecimal.rounded = b.mapDecimal PyDecimal.rounded) :
    jsonLeaf a = jsonLeaf b := by
  have htext : a.mapDecimal PyDecimal.text = b.mapDecimal PyDecimal.text :=
    Leaf.mapDecimal_imp (fun _ _ _ _ => PyDecimal.text_eq_iff.mpr) h
  cases a <;> cases b <;> try cases htext
  case decimal.decimal x y => simp only [jsonLeaf, Leaf.decimal.inj htext]
  all_goals rfl

/-! ## What canonical text identifies -/

/-- The texts of two values are equal exactly when the values are, and every failure is a
    `DomainValidationError`. -/
structure Identifies (dumps : Json → Except String PyStr) (t u : TypedJson PyDecimal) : Prop where
  same : ∀ a b, canonicalJson dumps [] t = .ok a → canonicalJson dumps [] u = .ok b →
    (a = b ↔ SameValue t u)
  raises : ∀ e, canonicalJson dumps [] t = .error e ∨ canonicalJson dumps [] u = .error e →
    ∃ message, e = .domainValidation message

/-- No decimal overflows the context, and values within I-JSON whose decimals round alike are
    equal. -/
structure HeldApart (t u : TypedJson PyDecimal) : Prop where
  fits : ∀ a, a ∈ t.leaves ∨ a ∈ u.leaves → Fits a
  apart : TypedJson.Encodable t → RoundedAlike t u → SameValue t u

section Pair

variable {dumps : Json → Except String PyStr} (hdumps : Faithful dumps)
  {t u : TypedJson PyDecimal} (ht : t.Distinct) (hu : u.Distinct)

include hdumps ht

theorem canonicalJson_returns (hfits : ∀ a ∈ t.leaves, Fits a) :
    (∃ text, canonicalJson dumps [] t = .ok text) ↔ TypedJson.Encodable t := by
  rw [canonicalJson_of_fits hfits, ← encodable_map, ← hdumps.accepts _ (ht.map jsonLeaf)]
  simp only [mapError_eq_ok]

include hu

theorem canonicalJson_of_roundedAlike (hfits : ∀ a, a ∈ t.leaves ∨ a ∈ u.leaves → Fits a)
    (h : RoundedAlike t u) : canonicalJson dumps [] t = canonicalJson dumps [] u := by
  have hjson : t.SameBy jsonLeaf u :=
    KeyedTree.SameBy.imp h h (fun _ _ _ _ hround _ => jsonLeaf_of_rounded hround)
  rw [canonicalJson_of_fits (fun a ha => hfits a (.inl ha)),
    canonicalJson_of_fits (fun a ha => hfits a (.inr ha)),
    hdumps.same _ _ (ht.map jsonLeaf) (hu.map jsonLeaf) hjson]

theorem roundedAlike_of_canonicalJson (hshape : SameShape t u)
    (hfits : ∀ a, a ∈ t.leaves ∨ a ∈ u.leaves → Fits a) {text : PyStr}
    (htext : canonicalJson dumps [] t = .ok text) (hutext : canonicalJson dumps [] u = .ok text) :
    RoundedAlike t u := by
  rw [canonicalJson_of_fits (fun a ha => hfits a (.inl ha)), mapError_eq_ok] at htext
  rw [canonicalJson_of_fits (fun a ha => hfits a (.inr ha)), mapError_eq_ok] at hutext
  have hjson : t.SameBy jsonLeaf u :=
    hdumps.injective _ _ text (ht.map jsonLeaf) (hu.map jsonLeaf) htext hutext
  exact hshape.imp hjson (fun a ha b hb hkind heq =>
    rounded_of_jsonLeaf (hfits a (.inl ha)) (hfits b (.inr hb)) hkind heq)

theorem identifies_of_heldApart (hshape : SameShape t u) (h : HeldApart t u) :
    Identifies dumps t u where
  same a b hta hub := by
    constructor
    · rintro rfl
      have hencodable : TypedJson.Encodable t :=
        (canonicalJson_returns hdumps ht (fun a ha => h.fits a (.inl ha))).mp ⟨a, hta⟩
      exact h.apart hencodable (roundedAlike_of_canonicalJson hdumps ht hu hshape h.fits hta hub)
    · intro hvalue
      have hrounded : RoundedAlike t u := KeyedTree.SameBy.imp hvalue hvalue
        (fun _ _ _ _ hnumber _ =>
          Leaf.mapDecimal_imp (fun _ _ _ _ => PyDecimal.rounded_of_value) hnumber)
      have hsame := canonicalJson_of_roundedAlike hdumps ht hu h.fits hrounded
      exact Except.ok.inj (hta.symm.trans (hsame.trans hub))
  raises e he := by
    have herror : ∀ v : TypedJson PyDecimal, (∀ a ∈ v.leaves, Fits a) →
        canonicalJson dumps [] v = .error e → ∃ message, e = .domainValidation message := by
      intro v hfits hv
      rw [canonicalJson_of_fits hfits] at hv
      cases hd : dumps (v.map jsonLeaf) with
      | ok text =>
        rw [hd] at hv
        cases hv
      | error message =>
        rw [hd] at hv
        cases hv
        exact ⟨_, rfl⟩
    exact he.elim (herror t (fun a ha => h.fits a (.inl ha))) (herror u (fun a ha => h.fits a (.inr ha)))

theorem heldApart_of_identifies (h : Identifies dumps t u) : HeldApart t u := by
  have hfits : ∀ v : TypedJson PyDecimal, (∀ e, canonicalJson dumps [] v = .error e →
      ∃ message, e = .domainValidation message) → ∀ a ∈ v.leaves, Fits a := by
    intro v hraises
    by_contra hnot
    obtain ⟨_, hoverflow⟩ := hraises .overflow (canonicalJson_of_not_fits hnot)
    cases hoverflow
  have htfits := hfits t (fun e he => h.raises e (.inl he))
  have hufits := hfits u (fun e he => h.raises e (.inr he))
  refine ⟨fun a ha => ha.elim (htfits a) (hufits a), fun hencodable hrounded => ?_⟩
  obtain ⟨text, htext⟩ := (canonicalJson_returns hdumps ht htfits).mpr hencodable
  have hsame := canonicalJson_of_roundedAlike hdumps ht hu
    (fun a ha => ha.elim (htfits a) (hufits a)) hrounded
  exact (h.same text text htext (hsame.symm.trans htext)).mp rfl

/-- Canonical JSON identifies exactly the values whose decimals the context holds apart. -/
theorem canonicalJson_identifies (hshape : SameShape t u) :
    Identifies dumps t u ↔ HeldApart t u :=
  ⟨heldApart_of_identifies hdumps ht hu, identifies_of_heldApart hdumps ht hu hshape⟩

end Pair

/-- Values whose decimals have at most 28 digits, and exponents in range, are held apart. -/
theorem heldApart_of_short {t u : TypedJson PyDecimal}
    (hshort : ∀ d, .decimal d ∈ t.leaves ∨ .decimal d ∈ u.leaves → d.Short) : HeldApart t u where
  fits a ha := by
    cases a with
    | decimal d =>
      obtain ⟨n, hn, -⟩ := (hshort d ha).rounded
      show d.rounded ≠ none
      rw [hn]
      nofun
    | _ => trivial
  apart _ hrounded := by
    refine KeyedTree.SameBy.imp hrounded hrounded (fun a ha b hb h _ => ?_)
    refine Leaf.mapDecimal_imp (fun x y hx hy hround => ?_) h
    obtain ⟨m, hm, hxvalue⟩ := (hshort x (.inl (hx ▸ ha))).rounded
    obtain ⟨n, hn, hyvalue⟩ := (hshort y (.inr (hy ▸ hb))).rounded
    obtain rfl : m = n := Option.some.inj (hm.symm.trans (hround.trans hn))
    exact hxvalue.symm.trans hyvalue

/-! ## A text for every value -/

/-- The text of `rfc8785.dumps` where no string has a control character -/
def plainDumps (t : Json) : Except String PyStr :=
  if TypedJson.Encodable t then .ok (JsonText.print t.sorted) else .error "not an I-JSON value"

theorem encodable_of_sorted {t u : Json} (h : t.sorted = u.sorted) :
    TypedJson.Encodable t ↔ TypedJson.Encodable u := by
  unfold TypedJson.Encodable
  simp only [← KeyedTree.mem_leaves_sorted t, ← KeyedTree.mem_leaves_sorted u,
    ← KeyedTree.mem_keys_sorted t, ← KeyedTree.mem_keys_sorted u, h]

theorem plainDumps_eq_ok {t : Json} {text : PyStr} :
    plainDumps t = .ok text ↔ TypedJson.Encodable t ∧ JsonText.print t.sorted = text := by
  unfold plainDumps
  split
  · next h => simp [h]
  · next h => simp [h]

theorem faithful_plainDumps : Faithful plainDumps where
  accepts t _ := by simp [plainDumps_eq_ok]
  same t u _ _ h := by
    unfold plainDumps
    rw [h]
    simp only [encodable_of_sorted h]
  injective t u text _ _ ht hu :=
    JsonText.print_injective
      ((plainDumps_eq_ok.mp ht).2.trans (plainDumps_eq_ok.mp hu).2.symm)

namespace Sample

def key (c : Char) : PyStr := [PyStr.code c]

/-- `\x7b"b": 2, "a": Decimal("89.00")\x7d` -/
def left : TypedJson PyDecimal :=
  .obj [(key 'b', .leaf (.int 2)), (key 'a', .leaf (.decimal ⟨false, 8900, -2⟩))]

/-- `\x7b"a": Decimal("89"), "b": 2\x7d` -/
def right : TypedJson PyDecimal :=
  .obj [(key 'a', .leaf (.decimal ⟨false, 89, 0⟩)), (key 'b', .leaf (.int 2))]

/-- `Decimal("1.00000000000000000000000000001")`, of 30 digits -/
def long : TypedJson PyDecimal := .leaf (.decimal ⟨false, 10 ^ 29 + 1, -29⟩)

def one : TypedJson PyDecimal := .leaf (.decimal ⟨false, 1, 0⟩)

end Sample

theorem sample_short (d : PyDecimal)
    (hd : .decimal d ∈ Sample.left.leaves ∨ .decimal d ∈ Sample.right.leaves) : d.Short := by
  have hcases : d = ⟨false, 8900, -2⟩ ∨ d = ⟨false, 89, 0⟩ := by
    simpa [Sample.left, Sample.right, KeyedTree.leaves, KeyedTree.fieldLeaves] using hd
  rcases hcases with rfl | rfl
  · exact ⟨by decide +kernel, by decide, by decide +kernel⟩
  · exact ⟨by decide +kernel, by decide, by decide +kernel⟩

theorem left_distinct : Sample.left.Distinct := ⟨by decide, trivial, trivial, trivial⟩

theorem right_distinct : Sample.right.Distinct := ⟨by decide, trivial, trivial, trivial⟩

open Sample in
theorem sample_shape : SameShape left right := by
  have hkeys : ([key 'b', key 'a'] : List PyStr).Nodup := by decide
  exact KeyedTree.sorted_obj_perm hkeys (List.Perm.swap _ _ _)

open Sample in
theorem canonicalJson_identifies_sample : Identifies plainDumps left right :=
  (canonicalJson_identifies faithful_plainDumps left_distinct right_distinct sample_shape).mpr
    (heldApart_of_short sample_short)

open Sample in
/-- A decimal of 30 digits has the text of another number. -/
theorem long_decimal_is_rounded : ¬ ∀ dumps : Json → Except String PyStr, Faithful dumps →
    ∀ t u : TypedJson PyDecimal, t.Distinct → u.Distinct → SameShape t u →
      Identifies dumps t u := by
  intro h
  have hlong : (⟨false, 10 ^ 29 + 1, -29⟩ : PyDecimal).rounded = some ⟨false, 1, 0⟩ := by
    decide +kernel
  have hone : (⟨false, 1, 0⟩ : PyDecimal).rounded = some ⟨false, 1, 0⟩ := by decide +kernel
  have hheld : HeldApart long one := heldApart_of_identifies faithful_plainDumps trivial trivial
    (h plainDumps faithful_plainDumps long one trivial trivial rfl)
  have hround : RoundedAlike long one := by
    show KeyedTree.leaf (Leaf.decimal _) = KeyedTree.leaf (Leaf.decimal _)
    rw [hlong, hone]
  have hvalue := hheld.apart (by decide) hround
  have hsame : (⟨false, 10 ^ 29 + 1, -29⟩ : PyDecimal).value = (⟨false, 1, 0⟩ : PyDecimal).value :=
    Leaf.decimal.inj (KeyedTree.leaf.inj hvalue)
  norm_num [PyDecimal.value] at hsame

end CanonicalJson

end Domain
