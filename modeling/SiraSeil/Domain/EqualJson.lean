-- SUMMARY: Values that are equal as JSON: the same but for the order of fields, what reading them by name finds, and that their canonical texts are equal.
import SiraSeil.Domain.Hashing
import SiraSeil.Domain.PythonJson
import SiraSeil.Library.KeyedTree

/-!
# Equal JSON

A document that was stored and loaded again has its fields in another order. This file compares
values without that order, and reads a value from JSON text.
-/

namespace Domain

open Sorting KeyedTree

/-! ## Values as trees -/

namespace Value

mutual
def tree : Value → KeyedTree String Atom
  | .atom a => .leaf a
  | .seq xs => .seq (seqTrees xs)
  | .obj fields => .obj (fieldTrees fields)

def seqTrees : List Value → List (KeyedTree String Atom)
  | [] => []
  | x :: xs => tree x :: seqTrees xs

def fieldTrees : List (String × Value) → List (String × KeyedTree String Atom)
  | [] => []
  | (name, v) :: fields => (name, tree v) :: fieldTrees fields
end

theorem fieldTrees_eq (fields : List (String × Value)) :
    fieldTrees fields = fields.map (fun p => (p.1, p.2.tree)) := by
  induction fields with
  | nil => rfl
  | cons p fields ih =>
    obtain ⟨name, v⟩ := p
    simp [fieldTrees, ih]

mutual
theorem leaves_tree : (v : Value) → v.tree.leaves = v.atoms
  | .atom _ => rfl
  | .seq xs => seqLeaves_seqTrees xs
  | .obj fields => fieldLeaves_fieldTrees fields

theorem seqLeaves_seqTrees : (xs : List Value) → seqLeaves (seqTrees xs) = seqAtoms xs
  | [] => rfl
  | x :: xs => by
    rw [seqAtoms_cons, ← leaves_tree x, ← seqLeaves_seqTrees xs]
    rfl

theorem fieldLeaves_fieldTrees : (fields : List (String × Value)) →
    fieldLeaves (fieldTrees fields) = fieldAtoms fields
  | [] => rfl
  | p :: fields => by
    rw [fieldAtoms_cons, ← leaves_tree p.2, ← fieldLeaves_fieldTrees fields]
    rfl
end

/-- A value that JSON can hold, with the fields of every object under their own names -/
structure IsJson (v : Value) : Prop where
  distinct : v.tree.Distinct
  untimed : ∀ d, .datetime d ∉ v.atoms

end Value

namespace Value

theorem isJson_atom {a : Atom} (h : ∀ d, Atom.datetime d ≠ a) : (Value.atom a).IsJson :=
  ⟨trivial, fun d hd => h d (List.mem_singleton.mp hd)⟩

theorem isJson_str (s : String) : (str s).IsJson := isJson_atom (by simp)

theorem isJson_bool (b : Bool) : (bool b).IsJson := isJson_atom (by simp)

theorem isJson_null : null.IsJson := isJson_atom (by simp)

theorem isJson_int (n : Int) : (int n).IsJson := isJson_atom (by simp)

theorem isJson_opt {α : Type} {f : α → Value} {o : Option α} (h : ∀ a, (f a).IsJson) :
    (opt f o).IsJson := by
  cases o with
  | none => exact isJson_null
  | some a => exact h a

theorem isJson_seq {xs : List Value} : (seq xs).IsJson ↔ ∀ x ∈ xs, x.IsJson := by
  induction xs with
  | nil => exact ⟨fun _ => by simp, fun _ => ⟨trivial, fun _ => List.not_mem_nil⟩⟩
  | cons x xs ih =>
    have hatoms : (seq (x :: xs)).atoms = x.atoms ++ (seq xs).atoms := rfl
    rw [List.forall_mem_cons, ← ih]
    constructor
    · rintro ⟨⟨hfirst, hrest⟩, huntimed⟩
      simp only [hatoms, List.mem_append, not_or] at huntimed
      exact ⟨⟨hfirst, fun d => (huntimed d).1⟩, hrest, fun d => (huntimed d).2⟩
    · rintro ⟨hfirst, hrest⟩
      refine ⟨⟨hfirst.distinct, hrest.distinct⟩, ?_⟩
      intro d
      simp only [hatoms, List.mem_append, not_or]
      exact ⟨hfirst.untimed d, hrest.untimed d⟩

theorem isJson_obj {fields : List (String × Value)} :
    (obj fields).IsJson ↔ (fields.map Prod.fst).Nodup ∧ ∀ p ∈ fields, p.2.IsJson := by
  have hkeys : (fieldTrees fields).map Prod.fst = fields.map Prod.fst := by
    rw [fieldTrees_eq, List.map_map]
    rfl
  constructor
  · rintro ⟨⟨hnodup, hdistinct⟩, huntimed⟩
    rw [hkeys] at hnodup
    rw [distinctFields_iff, fieldTrees_eq] at hdistinct
    refine ⟨hnodup, ?_⟩
    intro p hp
    refine ⟨hdistinct _ (List.mem_map_of_mem hp), ?_⟩
    intro d hd
    exact huntimed d (mem_fieldAtoms.mpr ⟨p, hp, hd⟩)
  · rintro ⟨hnodup, hfields⟩
    refine ⟨⟨hkeys ▸ hnodup, ?_⟩, ?_⟩
    · rw [distinctFields_iff, fieldTrees_eq, List.forall_mem_map]
      intro p hp
      exact (hfields p hp).distinct
    · intro d hd
      obtain ⟨p, hp, hatom⟩ := mem_fieldAtoms.mp hd
      exact (hfields p hp).untimed d hatom

end Value

/-- The values are equal as JSON. -/
def SameJson (v w : Value) : Prop := v.tree.sorted = w.tree.sorted

namespace SameJson

variable {v w : Value}

theorem refl (v : Value) : SameJson v v := rfl

theorem mem_atoms (h : SameJson v w) {a : Atom} : a ∈ v.atoms ↔ a ∈ w.atoms := by
  rw [← Value.leaves_tree, ← Value.leaves_tree, ← mem_leaves_sorted, h, mem_leaves_sorted]

theorem canonical (h : SameJson v w) : v.Canonical ↔ w.Canonical := by
  unfold Value.Canonical
  simp only [h.mem_atoms]

theorem atom_right {a : Atom} (h : SameJson v (.atom a)) : v = .atom a := by
  cases v with
  | atom b =>
    have hleaf := KeyedTree.leaf.inj h
    rw [hleaf]
  | seq xs => cases h
  | obj fields => cases h

theorem seq_iff {xs ys : List Value} : SameJson (.seq xs) (.seq ys) ↔ List.Forall₂ SameJson xs ys := by
  have hlists : ∀ xs ys : List Value,
      sortedSeq (Value.seqTrees xs) = sortedSeq (Value.seqTrees ys) ↔ List.Forall₂ SameJson xs ys := by
    intro xs
    induction xs with
    | nil =>
      intro ys
      cases ys <;> simp [Value.seqTrees, sortedSeq]
    | cons x xs ih =>
      intro ys
      cases ys with
      | nil => simp [Value.seqTrees, sortedSeq]
      | cons y ys => simp [Value.seqTrees, sortedSeq, ih, SameJson]
  rw [← hlists]
  exact ⟨KeyedTree.seq.inj, congrArg KeyedTree.seq⟩

theorem seq_right {ys : List Value} (h : SameJson v (.seq ys)) :
    ∃ xs, v = .seq xs ∧ List.Forall₂ SameJson xs ys := by
  cases v with
  | atom b => cases h
  | seq xs => exact ⟨xs, rfl, seq_iff.mp h⟩
  | obj fields => cases h

theorem obj_right {fields' : List (String × Value)} (h : SameJson v (.obj fields')) :
    ∃ fields, v = .obj fields ∧ SameJson (.obj fields) (.obj fields') := by
  cases v with
  | atom b => cases h
  | seq xs => cases h
  | obj fields => exact ⟨fields, rfl, h⟩

theorem obj_of_forall₂ {fields fields' : List (String × Value)}
    (h : List.Forall₂ (fun p q => p.1 = q.1 ∧ SameJson p.2 q.2) fields fields') :
    SameJson (.obj fields) (.obj fields') := by
  have hfields : sortedFields (Value.fieldTrees fields) = sortedFields (Value.fieldTrees fields') := by
    induction h with
    | nil => rfl
    | @cons p q fields fields' hpq _ ih =>
      obtain ⟨name, v⟩ := p
      obtain ⟨name', w⟩ := q
      obtain ⟨rfl, hvalue⟩ := hpq
      have hsorted : v.tree.sorted = w.tree.sorted := hvalue
      simp only [Value.fieldTrees, sortedFields, ih, hsorted]
  exact congrArg (fun l => KeyedTree.obj (sortedBy Prod.fst l)) hfields

section Fields

variable {fields fields' : List (String × Value)}

theorem perm (h : SameJson (.obj fields) (.obj fields')) :
    (fields.map (fun p => (p.1, p.2.tree.sorted))).Perm
      (fields'.map (fun p => (p.1, p.2.tree.sorted))) := by
  have hread : ∀ l : List (String × Value), (sortedBy Prod.fst (sortedFields (Value.fieldTrees l))).Perm
      (l.map (fun p => (p.1, p.2.tree.sorted))) := by
    intro l
    rw [sortedFields_eq, Value.fieldTrees_eq, List.map_map]
    exact sortedBy_perm _ _
  have hsorted := KeyedTree.obj.inj h
  exact (hread fields).symm.trans (hsorted ▸ hread fields')

theorem keys_perm (h : SameJson (.obj fields) (.obj fields')) :
    (fields.map Prod.fst).Perm (fields'.map Prod.fst) := by
  have hkeys := h.perm.map Prod.fst
  rw [List.map_map, List.map_map] at hkeys
  exact hkeys

theorem lookup (h : SameJson (.obj fields) (.obj fields')) (hnodup : (fields'.map Prod.fst).Nodup)
    (name : String) :
    (fields.lookup name).map (fun v => v.tree.sorted) =
      (fields'.lookup name).map (fun v => v.tree.sorted) := by
  have hmap : ∀ l : List (String × Value), (l.lookup name).map (fun v => v.tree.sorted) =
      (l.map (fun p => (p.1, p.2.tree.sorted))).lookup name := by
    intro l
    induction l with
    | nil => rfl
    | cons p l ih =>
      rw [List.map_cons, List.lookup_cons, List.lookup_cons]
      split
      · rfl
      · exact ih
  have hkeys : ∀ l : List (String × Value),
      (l.map (fun p => (p.1, p.2.tree.sorted))).map Prod.fst = l.map Prod.fst := by
    intro l
    rw [List.map_map]
    rfl
  have hnodup' : ((fields'.map (fun p => (p.1, p.2.tree.sorted))).map Prod.fst).Nodup := by
    rw [hkeys]
    exact hnodup
  rw [hmap, hmap]
  ext t
  rw [Dict.lookup_eq_some_iff ((h.perm.map Prod.fst).nodup_iff.mpr hnodup'),
    Dict.lookup_eq_some_iff hnodup', h.perm.mem_iff]

theorem lookup_some (h : SameJson (.obj fields) (.obj fields'))
    (hnodup : (fields'.map Prod.fst).Nodup) {name : String} {w : Value}
    (hw : fields'.lookup name = some w) : ∃ v, fields.lookup name = some v ∧ SameJson v w := by
  have hboth := h.lookup hnodup name
  rw [hw, Option.map_some, Option.map_eq_some_iff] at hboth
  obtain ⟨v, hv, hsame⟩ := hboth
  exact ⟨v, hv, hsame⟩

theorem lookup_atom (h : SameJson (.obj fields) (.obj fields'))
    (hnodup : (fields'.map Prod.fst).Nodup) {name : String} {a : Atom}
    (ha : fields'.lookup name = some (.atom a)) : fields.lookup name = some (.atom a) := by
  obtain ⟨v, hv, hsame⟩ := h.lookup_some hnodup ha
  rw [hv, hsame.atom_right]

theorem lookup_none (h : SameJson (.obj fields) (.obj fields'))
    (hnodup : (fields'.map Prod.fst).Nodup) {name : String} (hw : fields'.lookup name = none) :
    fields.lookup name = none := by
  have hboth := h.lookup hnodup name
  rw [hw, Option.map_none, Option.map_eq_none_iff] at hboth
  exact hboth

end Fields

end SameJson

/-! ## Comparing trees -/

section Comparing

variable {κ α : Type} [DecidableEq κ] [DecidableEq α]

mutual
def equalTrees : KeyedTree κ α → KeyedTree κ α → Bool
  | .leaf a, .leaf b => decide (a = b)
  | .seq items, .seq items' => equalItems items items'
  | .obj fields, .obj fields' => equalFields fields fields'
  | _, _ => false

def equalItems : List (KeyedTree κ α) → List (KeyedTree κ α) → Bool
  | [], [] => true
  | t :: items, u :: items' => equalTrees t u && equalItems items items'
  | _, _ => false

def equalFields : List (κ × KeyedTree κ α) → List (κ × KeyedTree κ α) → Bool
  | [], [] => true
  | (k, t) :: fields, (l, u) :: fields' => decide (k = l) && equalTrees t u && equalFields fields fields'
  | _, _ => false
end

mutual
theorem eq_of_equalTrees : (t u : KeyedTree κ α) → equalTrees t u = true → t = u
  | .leaf a, .leaf b, h => congrArg KeyedTree.leaf (of_decide_eq_true h)
  | .seq items, .seq items', h => congrArg KeyedTree.seq (eq_of_equalItems items items' h)
  | .obj fields, .obj fields', h => congrArg KeyedTree.obj (eq_of_equalFields fields fields' h)
  | .leaf _, .seq _, h => by cases h
  | .leaf _, .obj _, h => by cases h
  | .seq _, .leaf _, h => by cases h
  | .seq _, .obj _, h => by cases h
  | .obj _, .leaf _, h => by cases h
  | .obj _, .seq _, h => by cases h

theorem eq_of_equalItems : (items items' : List (KeyedTree κ α)) →
    equalItems items items' = true → items = items'
  | [], [], _ => rfl
  | t :: items, u :: items', h => by
    simp only [equalItems, Bool.and_eq_true] at h
    rw [eq_of_equalTrees t u h.1, eq_of_equalItems items items' h.2]
  | [], _ :: _, h => by cases h
  | _ :: _, [], h => by cases h

theorem eq_of_equalFields : (fields fields' : List (κ × KeyedTree κ α)) →
    equalFields fields fields' = true → fields = fields'
  | [], [], _ => rfl
  | (k, t) :: fields, (l, u) :: fields', h => by
    simp only [equalFields, Bool.and_eq_true, decide_eq_true_eq] at h
    rw [h.1.1, eq_of_equalTrees t u h.1.2, eq_of_equalFields fields fields' h.2]
  | [], _ :: _, h => by cases h
  | _ :: _, [], h => by cases h
end

end Comparing

/-! ## Canonical texts -/

namespace Rfc8785

mutual
/-- The text of a tree, with its fields as they stand -/
def treeText : KeyedTree String Atom → List Char
  | .leaf a => atomText a
  | .seq items => '[' :: joined (treeTexts items) ++ [']']
  | .obj fields => Char.ofNat 123 :: joined (memberTexts fields) ++ [Char.ofNat 125]

def treeTexts : List (KeyedTree String Atom) → List (List Char)
  | [] => []
  | t :: items => treeText t :: treeTexts items

def memberTexts : List (String × KeyedTree String Atom) → List (List Char)
  | [] => []
  | (name, t) :: fields => (quoted name.toList ++ ':' :: treeText t) :: memberTexts fields
end

theorem memberTexts_eq (fields : List (String × KeyedTree String Atom)) :
    memberTexts fields = fields.map (fun p => quoted p.1.toList ++ ':' :: treeText p.2) := by
  induction fields with
  | nil => rfl
  | cons p fields ih =>
    obtain ⟨name, t⟩ := p
    simp [memberTexts, ih]

mutual
theorem dumps_eq : (v : Value) → dumps v = treeText v.tree.sorted
  | .atom _ => rfl
  | .seq xs => by rw [dumps, Value.tree, sorted, treeText, seqTexts_eq xs]
  | .obj fields => by
    have hsorted : (sortedBy Prod.fst (sortedFields (Value.fieldTrees fields))).map
        (fun p => (p.1, treeText p.2)) = sortedBy Prod.fst (fieldTexts fields) := by
      rw [fieldTexts_eq fields]
      exact map_sortedBy (fun p : String × KeyedTree String Atom => (p.1, treeText p.2)) Prod.fst _
    rw [dumps, Value.tree, sorted, treeText, memberTexts_eq, ← hsorted, List.map_map]
    rfl

theorem seqTexts_eq : (xs : List Value) → seqTexts xs = treeTexts (sortedSeq (Value.seqTrees xs))
  | [] => rfl
  | x :: xs => by rw [seqTexts, Value.seqTrees, sortedSeq, treeTexts, dumps_eq x, seqTexts_eq xs]

theorem fieldTexts_eq : (fields : List (String × Value)) →
    fieldTexts fields =
      (sortedFields (Value.fieldTrees fields)).map (fun p => (p.1, treeText p.2))
  | [] => rfl
  | (name, v) :: fields => by
    rw [fieldTexts, Value.fieldTrees, sortedFields, List.map_cons, dumps_eq v, fieldTexts_eq fields]
end

theorem dumps_congr {v w : Value} (h : SameJson v w) : dumps v = dumps w := by
  rw [dumps_eq, dumps_eq, h]

end Rfc8785

theorem hexdigest_ascii_congr {v w : Value} (h : SameJson v w) :
    Runtime.ascii.hexdigest v = Runtime.ascii.hexdigest w := by
  show Sha256.hexdigest (Runtime.utf8 (Rfc8785.dumps v)) = _
  rw [Rfc8785.dumps_congr h]
  rfl

/-! ## Reading -/

/-- A text without halves of surrogate pairs -/
def textOf (s : PyStr) : Option String :=
  if s.all (fun c => decide (PyStr.Scalar c)) then
    some (String.ofList (s.map (fun c => Char.ofNat c.val)))
  else none

/-- A leaf that is no float -/
def atomOf : Leaf PythonJson.PyFloat → Option Atom
  | .null => some .null
  | .bool b => some (.bool b)
  | .int n => some (.int n)
  | .str s => (textOf s).map .str
  | .decimal _ => none

mutual
/-- The value of a JSON document without floats -/
def valueOf : PythonJson.JsonValue → Option Value
  | .leaf a => (atomOf a).map .atom
  | .seq items => (valuesOf items).map .seq
  | .obj fields => (fieldValuesOf fields).map .obj

def valuesOf : List PythonJson.JsonValue → Option (List Value)
  | [] => some []
  | t :: items => do
    let v ← valueOf t
    let vs ← valuesOf items
    return v :: vs

def fieldValuesOf : List (PyStr × PythonJson.JsonValue) → Option (List (String × Value))
  | [] => some []
  | (k, t) :: fields => do
    let name ← textOf k
    let v ← valueOf t
    let rest ← fieldValuesOf fields
    return (name, v) :: rest
end

/-- `json.loads`, on texts without floats -/
def jsonLoads (float : PyStr → PythonJson.PyFloat) (text : PyStr) : Option Value :=
  (PythonJson.loads float text).bind valueOf

end Domain
