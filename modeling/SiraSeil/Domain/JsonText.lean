-- SUMMARY: JSON values as keyed trees, their canonical text, and that no two of them share a text.
import SiraSeil.Library.KeyedTree
import Mathlib.Algebra.Order.Ring.Nat
import Mathlib.Data.List.Infix
import Mathlib.Data.List.Lex
import Mathlib.Order.Fin.Basic

/-!
# JSON text

The leaves of a JSON value, and the text that RFC 8785 gives a value whose fields are sorted and
whose strings have no control characters. A value can be read back from its text, so values with
the same text are the same.
-/

namespace Domain

/-- A character of a `str`, which may be one half of a surrogate pair -/
abbrev CodePoint := Fin 0x110000

abbrev PyStr := List CodePoint

instance codePoints_ne_zero : NeZero 0x110000 := ⟨by decide⟩

instance lawfulBEq_pyStr : LawfulBEq PyStr := inferInstance

namespace PyStr

def code (c : Char) : CodePoint := Fin.ofNat 0x110000 c.toNat

def ofChars (text : List Char) : PyStr := text.map code

theorem code_val (c : Char) : (code c).val = c.toNat := by
  have hlt : c.toNat < 0x110000 := by
    rcases c.valid with h | h
    · exact h.trans (by decide)
    · exact h.2
  exact Nat.mod_eq_of_lt hlt

theorem code_injective : Function.Injective code := by
  intro c d h
  have hval := congrArg Fin.val h
  rw [code_val, code_val] at hval
  rw [← Char.ofNat_toNat c, ← Char.ofNat_toNat d, hval]

theorem ofChars_injective : Function.Injective ofChars :=
  List.map_injective_iff.mpr code_injective

/-- A character that UTF-8 can encode -/
def Scalar (c : CodePoint) : Prop := c.val < 0xD800 ∨ 0xDFFF < c.val

instance (c : CodePoint) : Decidable (Scalar c) := inferInstanceAs (Decidable (_ ∨ _))

theorem scalar_code (c : Char) : Scalar (code c) := by
  unfold Scalar
  rw [code_val]
  rcases c.valid with h | h
  · exact .inl h
  · exact .inr h.1

end PyStr

/-! ## Leaves -/

inductive LeafKind
  | null | bool | int | str | decimal
  deriving DecidableEq, Repr

/-- A leaf of a value, with decimals of some type -/
inductive Leaf (δ : Type)
  | null
  | bool (b : Bool)
  | int (n : Int)
  | str (s : PyStr)
  | decimal (d : δ)
  deriving DecidableEq

namespace Leaf

variable {δ : Type}

def kind : Leaf δ → LeafKind
  | null => .null
  | bool _ => .bool
  | int _ => .int
  | str _ => .str
  | decimal _ => .decimal

/-- The leaf with its decimal mapped -/
def mapDecimal {ε : Type} (f : δ → ε) : Leaf δ → Leaf ε
  | null => null
  | bool b => bool b
  | int n => int n
  | str s => str s
  | decimal d => decimal (f d)

theorem mapDecimal_imp {ε ζ : Type} {f : δ → ε} {g : δ → ζ} {a b : Leaf δ}
    (hfg : ∀ x y, a = decimal x → b = decimal y → f x = f y → g x = g y)
    (h : a.mapDecimal f = b.mapDecimal f) : a.mapDecimal g = b.mapDecimal g := by
  cases a with
  | decimal x =>
    cases b with
    | decimal y => exact congrArg decimal (hfg x y rfl rfl (decimal.inj h))
    | _ => cases h
  | _ =>
    cases b <;> cases h
    rfl

/-- What I-JSON can hold: integers that a double represents, and text in Unicode -/
def Encodable : Leaf δ → Prop
  | int n => n.natAbs ≤ 2 ^ 53 - 1
  | str s => ∀ c ∈ s, PyStr.Scalar c
  | _ => True

instance : (a : Leaf δ) → Decidable a.Encodable
  | int n => inferInstanceAs (Decidable (n.natAbs ≤ 2 ^ 53 - 1))
  | str s => inferInstanceAs (Decidable (∀ c ∈ s, PyStr.Scalar c))
  | null => .isTrue trivial
  | bool _ => .isTrue trivial
  | decimal _ => .isTrue trivial

end Leaf

/-- A value whose decimals are of type `δ` -/
abbrev TypedJson (δ : Type) := KeyedTree PyStr (Leaf δ)

/-- A JSON value, which has no decimals -/
abbrev Json := TypedJson Empty

/-- All leaves and all keys are within I-JSON. -/
def TypedJson.Encodable {δ : Type} (t : TypedJson δ) : Prop :=
  (∀ a ∈ t.leaves, a.Encodable) ∧ ∀ k ∈ t.keys, ∀ c ∈ k, PyStr.Scalar c

instance {δ : Type} (t : TypedJson δ) : Decidable (TypedJson.Encodable t) :=
  inferInstanceAs (Decidable (_ ∧ _))

/-! ## Text -/

namespace JsonText

open PyStr

/-- Quotes and backslashes are escaped. -/
def escaped (c : CodePoint) : PyStr :=
  if c = code '"' ∨ c = code '\\' then [code '\\', c] else [c]

def quoted (s : PyStr) : PyStr :=
  code '"' :: (s.flatMap escaped ++ [code '"'])

def natText (n : Nat) : PyStr := ofChars (Nat.toDigits 10 n)

def intText (n : Int) : PyStr :=
  if n < 0 then code '-' :: natText n.natAbs else natText n.natAbs

def leafText : Leaf Empty → PyStr
  | .null => ofChars ['n', 'u', 'l', 'l']
  | .bool true => ofChars ['t', 'r', 'u', 'e']
  | .bool false => ofChars ['f', 'a', 'l', 's', 'e']
  | .int n => intText n
  | .str s => quoted s

mutual
def print : Json → PyStr
  | .leaf a => leafText a
  | .seq items => code '[' :: printSeq items
  | .obj fields => 123 :: printFields fields

/-- The first item, the others with a comma before each, and the closing bracket -/
def printSeq : List Json → PyStr
  | [] => [code ']']
  | t :: items => print t ++ printItems items

def printItems : List Json → PyStr
  | [] => [code ']']
  | t :: items => code ',' :: (print t ++ printItems items)

def printFields : List (PyStr × Json) → PyStr
  | [] => [125]
  | (k, t) :: fields => quoted k ++ code ':' :: (print t ++ printMembers fields)

def printMembers : List (PyStr × Json) → PyStr
  | [] => [125]
  | (k, t) :: fields => code ',' :: (quoted k ++ code ':' :: (print t ++ printMembers fields))
end

/-! ## Reading back -/

variable {c : CodePoint} {r s : PyStr} {n : Nat}

theorem escaped_cancel {d : CodePoint} (h : escaped c ++ r = escaped d ++ s) : c = d ∧ r = s := by
  unfold escaped at h
  split at h
  · split at h
    · simpa using h
    · next hd =>
      simp only [List.cons_append, List.nil_append, List.cons.injEq] at h
      exact absurd (.inr h.1.symm) hd
  · next hc =>
    split at h
    · simp only [List.cons_append, List.nil_append, List.cons.injEq] at h
      exact absurd (.inr h.1) hc
    · simpa using h

theorem escaped_ne_quote (c : CodePoint) (r s : PyStr) : escaped c ++ r ≠ code '"' :: s := by
  intro h
  unfold escaped at h
  split at h
  · have hne : code '\\' ≠ code '"' := by decide
    exact hne (List.cons.inj h).1
  · next hc => exact hc (.inl (List.cons.inj h).1)

theorem body_cancel : {a b r s : PyStr} →
    a.flatMap escaped ++ code '"' :: r = b.flatMap escaped ++ code '"' :: s → a = b ∧ r = s
  | [], [], _, _, h => ⟨rfl, (List.cons.inj h).2⟩
  | [], d :: b, _, s, h => by
    rw [List.flatMap_cons, List.append_assoc] at h
    exact absurd h.symm (escaped_ne_quote d _ _)
  | c :: a, [], r, _, h => by
    rw [List.flatMap_cons, List.append_assoc] at h
    exact absurd h (escaped_ne_quote c _ _)
  | c :: a, d :: b, r, s, h => by
    rw [List.flatMap_cons, List.flatMap_cons, List.append_assoc, List.append_assoc] at h
    obtain ⟨rfl, hrest⟩ := escaped_cancel h
    obtain ⟨rfl, hr⟩ := body_cancel hrest
    exact ⟨rfl, hr⟩

theorem quoted_cancel {a b : PyStr} (h : quoted a ++ r = quoted b ++ s) : a = b ∧ r = s := by
  unfold quoted at h
  simp only [List.cons_append, List.append_assoc, List.cons.injEq, List.nil_append, true_and] at h
  exact body_cancel h

/-- A digit, which goes on a number -/
def isDigit (c : CodePoint) : Bool := 48 ≤ c.val && c.val ≤ 57

/-- What stands after a value does not go on a number. -/
def Ends (r : PyStr) : Prop := ∀ c ∈ r.head?, isDigit c = false

theorem natText_digits (hc : c ∈ natText n) : isDigit c = true := by
  obtain ⟨d, hd, rfl⟩ := List.mem_map.mp hc
  have hdigit := Nat.isDigit_of_mem_toDigits (by decide) (by decide) hd
  unfold isDigit
  rw [code_val]
  simp only [Char.isDigit, Bool.and_eq_true, decide_eq_true_eq] at hdigit ⊢
  exact hdigit

theorem takeWhile_natText (hr : Ends r) : (natText n ++ r).takeWhile isDigit = natText n := by
  rw [List.takeWhile_append_of_pos (fun c hc => natText_digits hc)]
  have hnil : r.takeWhile isDigit = [] := by
    cases r with
    | nil => rfl
    | cons c r => simp [hr c rfl]
  rw [hnil, List.append_nil]

theorem natText_cancel {m : Nat} (hr : Ends r) (hs : Ends s)
    (h : natText m ++ r = natText n ++ s) : m = n ∧ r = s := by
  have htext : natText m = natText n := by
    rw [← takeWhile_natText (n := m) hr, h, takeWhile_natText hs]
  refine ⟨?_, List.append_cancel_left (htext ▸ h)⟩
  have hdigits := ofChars_injective htext
  rw [← Nat.ofDigitChars_ten_toDigits (n := m), hdigits, Nat.ofDigitChars_ten_toDigits]

theorem natText_head (n : Nat) : ∃ c rest, natText n = c :: rest ∧ isDigit c = true := by
  cases h : natText n with
  | nil =>
    have hnil : Nat.toDigits 10 n = [] := List.map_eq_nil_iff.mp h
    have hpos := Nat.length_toDigits_pos (b := 10) (n := n)
    rw [hnil] at hpos
    cases hpos
  | cons c rest => exact ⟨c, rest, rfl, natText_digits (h ▸ List.mem_cons_self)⟩

theorem natText_ne_minus : natText n ++ r ≠ code '-' :: s := by
  intro h
  obtain ⟨c, rest, hc, hdigit⟩ := natText_head n
  rw [hc] at h
  rw [(List.cons.inj h).1] at hdigit
  exact absurd hdigit (by decide)

theorem intText_cancel {m n : Int} (hr : Ends r) (hs : Ends s)
    (h : intText m ++ r = intText n ++ s) : m = n ∧ r = s := by
  unfold intText at h
  split at h
  · split at h
    · obtain ⟨habs, hrest⟩ := natText_cancel hr hs (List.cons.inj h).2
      exact ⟨by omega, hrest⟩
    · exact absurd h.symm natText_ne_minus
  · split at h
    · exact absurd h natText_ne_minus
    · obtain ⟨habs, hrest⟩ := natText_cancel hr hs h
      exact ⟨by omega, hrest⟩

/-- The kind of leaf that a text starts -/
def opener (c : CodePoint) : Option LeafKind :=
  if c = code 'n' then some .null
  else if c = code 't' ∨ c = code 'f' then some .bool
  else if c = code '"' then some .str
  else if c = code '-' ∨ isDigit c then some .int
  else none

theorem opener_digit (hc : isDigit c = true) : opener c = some .int := by
  have hne : ∀ d, isDigit d = false → c ≠ d := by
    rintro d hd rfl
    rw [hd] at hc
    cases hc
  unfold opener
  rw [if_neg (hne _ (by decide)), if_neg (not_or.mpr ⟨hne _ (by decide), hne _ (by decide)⟩),
    if_neg (hne _ (by decide)), if_pos (.inr hc)]

theorem leafText_head (a : Leaf Empty) :
    ∃ c rest, leafText a = c :: rest ∧ opener c = some a.kind := by
  cases a with
  | null => exact ⟨code 'n', _, rfl, rfl⟩
  | bool b =>
    cases b
    · exact ⟨code 'f', _, rfl, rfl⟩
    · exact ⟨code 't', _, rfl, rfl⟩
  | int n =>
    show ∃ c rest, intText n = c :: rest ∧ _
    unfold intText
    split
    · exact ⟨code '-', _, rfl, rfl⟩
    · obtain ⟨c, rest, htext, hdigit⟩ := natText_head n.natAbs
      exact ⟨c, rest, htext, opener_digit hdigit⟩
  | str s => exact ⟨code '"', _, rfl, rfl⟩
  | decimal d => exact d.elim

theorem leafText_cancel {a b : Leaf Empty} (hr : Ends r) (hs : Ends s)
    (h : leafText a ++ r = leafText b ++ s) : a = b ∧ r = s := by
  have hkind : a.kind = b.kind := by
    obtain ⟨c, rest, hc, hopen⟩ := leafText_head a
    obtain ⟨d, rest', hd, hopen'⟩ := leafText_head b
    rw [hc, hd, List.cons_append, List.cons_append, List.cons.injEq] at h
    rw [h.1] at hopen
    exact Option.some.inj (hopen.symm.trans hopen')
  cases a <;> cases b <;> try cases hkind
  case null.null => exact ⟨rfl, List.append_cancel_left h⟩
  case bool.bool b b' =>
    cases b <;> cases b'
    · exact ⟨rfl, List.append_cancel_left h⟩
    · have hne : code 'f' ≠ code 't' := by decide
      exact absurd (List.cons.inj h).1 hne
    · have hne : code 't' ≠ code 'f' := by decide
      exact absurd (List.cons.inj h).1 hne
    · exact ⟨rfl, List.append_cancel_left h⟩
  case int.int m n =>
    obtain ⟨rfl, hrest⟩ := intText_cancel hr hs h
    exact ⟨rfl, hrest⟩
  case str.str a b =>
    obtain ⟨rfl, hrest⟩ := quoted_cancel h
    exact ⟨rfl, hrest⟩
  case decimal.decimal d _ => exact d.elim

/-- The character that a text starts with, as it tells sequences, objects and leaves apart -/
theorem print_head (t : Json) : ∃ c rest, print t = c :: rest ∧
    (c = code '[' ↔ ∃ items, t = .seq items) ∧ (c = 123 ↔ ∃ fields, t = .obj fields) ∧
      c ≠ code ']' ∧ c ≠ 125 := by
  cases t with
  | leaf a =>
    obtain ⟨c, rest, hc, hopen⟩ := leafText_head a
    have hne : ∀ d, opener d = none → c ≠ d := by
      rintro d hd rfl
      rw [hd] at hopen
      cases hopen
    refine ⟨c, rest, hc, ⟨fun h => absurd h (hne _ (by decide)), nofun⟩,
      ⟨fun h => absurd h (hne _ (by decide)), nofun⟩, hne _ (by decide), hne _ (by decide)⟩
  | seq items => exact ⟨code '[', _, rfl, ⟨fun _ => ⟨_, rfl⟩, fun _ => rfl⟩,
      ⟨fun h => absurd h (by decide), nofun⟩, by decide, by decide⟩
  | obj fields => exact ⟨123, _, rfl, ⟨fun h => absurd h (by decide), nofun⟩,
      ⟨fun _ => ⟨_, rfl⟩, fun _ => rfl⟩, by decide, by decide⟩

theorem ends_cons (hc : isDigit c = false) : Ends (c :: r) := by
  rintro d hd
  cases hd
  exact hc

theorem ends_printItems (items : List Json) (r : PyStr) : Ends (printItems items ++ r) := by
  cases items <;> exact ends_cons (by decide)

theorem ends_printMembers (fields : List (PyStr × Json)) (r : PyStr) :
    Ends (printMembers fields ++ r) := by
  cases fields with
  | nil => exact ends_cons (by decide)
  | cons p fields => exact ends_cons (by decide)

mutual
theorem print_cancel : (t u : Json) → {r s : PyStr} → Ends r → Ends s →
    print t ++ r = print u ++ s → t = u ∧ r = s
  | .leaf a, .leaf b, _, _, hr, hs, h => by
    obtain ⟨rfl, hrest⟩ := leafText_cancel hr hs h
    exact ⟨rfl, hrest⟩
  | .seq items, .seq items', _, _, hr, hs, h => by
    obtain ⟨rfl, hrest⟩ := printSeq_cancel items items' hr hs (List.cons.inj h).2
    exact ⟨rfl, hrest⟩
  | .obj fields, .obj fields', _, _, hr, hs, h => by
    obtain ⟨rfl, hrest⟩ := printFields_cancel fields fields' hr hs (List.cons.inj h).2
    exact ⟨rfl, hrest⟩
  | .leaf a, .seq items, _, _, _, _, h => by
    obtain ⟨c, rest, hc, hseq, -⟩ := print_head (.leaf a)
    rw [hc] at h
    obtain ⟨_, ht⟩ := hseq.mp (List.cons.inj h).1
    cases ht
  | .leaf a, .obj fields, _, _, _, _, h => by
    obtain ⟨c, rest, hc, -, hobj, -⟩ := print_head (.leaf a)
    rw [hc] at h
    obtain ⟨_, ht⟩ := hobj.mp (List.cons.inj h).1
    cases ht
  | .seq items, .leaf a, _, _, _, _, h => by
    obtain ⟨c, rest, hc, hseq, -⟩ := print_head (.leaf a)
    rw [hc] at h
    obtain ⟨_, ht⟩ := hseq.mp (List.cons.inj h).1.symm
    cases ht
  | .obj fields, .leaf a, _, _, _, _, h => by
    obtain ⟨c, rest, hc, -, hobj, -⟩ := print_head (.leaf a)
    rw [hc] at h
    obtain ⟨_, ht⟩ := hobj.mp (List.cons.inj h).1.symm
    cases ht
  | .seq _, .obj _, _, _, _, _, h => by
    have hne : code '[' ≠ 123 := by decide
    exact absurd (List.cons.inj h).1 hne
  | .obj _, .seq _, _, _, _, _, h => by
    have hne : 123 ≠ code '[' := by decide
    exact absurd (List.cons.inj h).1 hne

theorem printSeq_cancel : (items items' : List Json) → {r s : PyStr} → Ends r → Ends s →
    printSeq items ++ r = printSeq items' ++ s → items = items' ∧ r = s
  | [], [], _, _, _, _, h => ⟨rfl, (List.cons.inj h).2⟩
  | t :: items, u :: items', r, s, hr, hs, h => by
    simp only [printSeq, List.append_assoc] at h
    obtain ⟨rfl, htail⟩ := print_cancel t u (ends_printItems _ _) (ends_printItems _ _) h
    obtain ⟨rfl, hrest⟩ := printItems_cancel items items' hr hs htail
    exact ⟨rfl, hrest⟩
  | [], u :: items', r, s, _, _, h => by
    obtain ⟨c, rest, hc, -, -, hclose, -⟩ := print_head u
    simp only [printSeq, List.append_assoc, hc] at h
    exact absurd (List.cons.inj h).1.symm hclose
  | t :: items, [], r, s, _, _, h => by
    obtain ⟨c, rest, hc, -, -, hclose, -⟩ := print_head t
    simp only [printSeq, List.append_assoc, hc] at h
    exact absurd (List.cons.inj h).1 hclose

theorem printItems_cancel : (items items' : List Json) → {r s : PyStr} → Ends r → Ends s →
    printItems items ++ r = printItems items' ++ s → items = items' ∧ r = s
  | [], [], _, _, _, _, h => ⟨rfl, (List.cons.inj h).2⟩
  | t :: items, u :: items', r, s, hr, hs, h => by
    simp only [printItems, List.cons_append, List.append_assoc, List.cons.injEq, true_and] at h
    obtain ⟨rfl, htail⟩ := print_cancel t u (ends_printItems _ _) (ends_printItems _ _) h
    obtain ⟨rfl, hrest⟩ := printItems_cancel items items' hr hs htail
    exact ⟨rfl, hrest⟩
  | [], _ :: _, _, _, _, _, h => by
    have hne : code ']' ≠ code ',' := by decide
    exact absurd (List.cons.inj h).1 hne
  | _ :: _, [], _, _, _, _, h => by
    have hne : code ',' ≠ code ']' := by decide
    exact absurd (List.cons.inj h).1 hne

theorem printFields_cancel : (fields fields' : List (PyStr × Json)) → {r s : PyStr} → Ends r →
    Ends s → printFields fields ++ r = printFields fields' ++ s → fields = fields' ∧ r = s
  | [], [], _, _, _, _, h => ⟨rfl, (List.cons.inj h).2⟩
  | (k, t) :: fields, (l, u) :: fields', r, s, hr, hs, h => by
    simp only [printFields, List.append_assoc] at h
    obtain ⟨rfl, hvalue⟩ := quoted_cancel h
    simp only [List.cons_append, List.append_assoc, List.cons.injEq, true_and] at hvalue
    obtain ⟨rfl, htail⟩ := print_cancel t u (ends_printMembers _ _) (ends_printMembers _ _) hvalue
    obtain ⟨rfl, hrest⟩ := printMembers_cancel fields fields' hr hs htail
    exact ⟨rfl, hrest⟩
  | [], _ :: _, _, _, _, _, h => by
    have hne : (125 : CodePoint) ≠ code '"' := by decide
    exact absurd (List.cons.inj h).1 hne
  | _ :: _, [], _, _, _, _, h => by
    have hne : code '"' ≠ (125 : CodePoint) := by decide
    exact absurd (List.cons.inj h).1 hne

theorem printMembers_cancel : (fields fields' : List (PyStr × Json)) → {r s : PyStr} → Ends r →
    Ends s → printMembers fields ++ r = printMembers fields' ++ s → fields = fields' ∧ r = s
  | [], [], _, _, _, _, h => ⟨rfl, (List.cons.inj h).2⟩
  | (k, t) :: fields, (l, u) :: fields', r, s, hr, hs, h => by
    simp only [printMembers, List.cons_append, List.append_assoc, List.cons.injEq, true_and] at h
    obtain ⟨rfl, hvalue⟩ := quoted_cancel h
    simp only [List.cons.injEq, true_and] at hvalue
    obtain ⟨rfl, htail⟩ := print_cancel t u (ends_printMembers _ _) (ends_printMembers _ _) hvalue
    obtain ⟨rfl, hrest⟩ := printMembers_cancel fields fields' hr hs htail
    exact ⟨rfl, hrest⟩
  | [], _ :: _, _, _, _, _, h => by
    have hne : (125 : CodePoint) ≠ code ',' := by decide
    exact absurd (List.cons.inj h).1 hne
  | _ :: _, [], _, _, _, _, h => by
    have hne : code ',' ≠ (125 : CodePoint) := by decide
    exact absurd (List.cons.inj h).1 hne
end

theorem print_injective : Function.Injective print := by
  intro t u h
  have hnil : Ends [] := nofun
  exact (print_cancel t u hnil hnil (congrArg (· ++ []) h)).1

end JsonText

end Domain
