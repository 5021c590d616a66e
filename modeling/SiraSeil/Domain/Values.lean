-- SUMMARY: Raised errors, timestamps, canonical values, the runtime services the engine relies on, and content hashing.
import Mathlib.Data.String.Basic
import Mathlib.Data.Rat.Defs
import Mathlib.Algebra.Order.Ring.Unbundled.Rat
import SiraSeil.Library.Sorting

/-!
# Values, errors and content hashing

`domain/hashing.py` hashes the RFC 8785 text of a normalized value. The tree a
payload is built from is `Value`; hashing refuses a naive timestamp and an
integer outside the range RFC 8785 can represent, and otherwise returns the
digest of the canonical text.
-/

namespace Domain

/-! ## Errors -/

inductive PyError
  | domainValidation (message : String)
  | value (message : String)
  | key (text : String)
  | zeroDivision
  | invalidOperation
  | stopIteration
  deriving DecidableEq, Repr

/-- What a computation of the engine returns or raises. -/
abbrev Py (α : Type) := Except PyError α

/-! ## Timestamps -/

/-- A timestamp, as microseconds since the epoch in UTC. A naive timestamp has no
    time zone, so it cannot be compared with an aware one. -/
structure Datetime where
  micros : Int
  aware : Bool
  deriving DecidableEq, Repr

/-! ## Canonical values -/

inductive Atom
  | null
  | bool (b : Bool)
  | int (n : Int)
  | str (s : String)
  | datetime (d : Datetime)
  deriving DecidableEq, Repr

inductive Value
  | atom (a : Atom)
  | seq (xs : List Value)
  | obj (fields : List (String × Value))

namespace Value

abbrev null : Value := .atom .null
abbrev bool (b : Bool) : Value := .atom (.bool b)
abbrev int (n : Int) : Value := .atom (.int n)
abbrev nat (n : Nat) : Value := .atom (.int n)
abbrev str (s : String) : Value := .atom (.str s)
abbrev datetime (d : Datetime) : Value := .atom (.datetime d)

abbrev strs (xs : List String) : Value := .seq (xs.map str)

/-- `None` or the value of an optional field. -/
def opt {α : Type} (f : α → Value) : Option α → Value
  | none => null
  | some a => f a

/-- An exact ratio as its reduced numerator and positive denominator. -/
def ratio (q : ℚ) : Value :=
  .obj [("numerator", .int q.num), ("denominator", .nat q.den)]

mutual
/-- The atoms of a value, in the order they are written. -/
def atoms : Value → List Atom
  | .atom a => [a]
  | .seq xs => seqAtoms xs
  | .obj fields => fieldAtoms fields

def seqAtoms : List Value → List Atom
  | [] => []
  | x :: xs => atoms x ++ seqAtoms xs

def fieldAtoms : List (String × Value) → List Atom
  | [] => []
  | (_, v) :: fields => atoms v ++ fieldAtoms fields
end

end Value

/-- A timestamp without a time zone. -/
def Atom.naive : Atom → Bool
  | .datetime d => !d.aware
  | _ => false

/-- An integer that RFC 8785 text cannot carry exactly. -/
def Atom.outOfDomain : Atom → Bool
  | .int n => decide (n ≤ -(2 ^ 53) ∨ 2 ^ 53 ≤ n)
  | _ => false

/-! ## Runtime services -/

/-- The services of the language runtime and of its packages that the engine calls
    and whose text-level behaviour no result depends on. -/
structure Runtime where
  /-- `str.casefold` -/
  casefold : String → String
  /-- `Fraction(text)` -/
  fraction : String → Py ℚ
  /-- The SHA-256 hex digest of the RFC 8785 text of a value. -/
  hexdigest : Value → String
  /-- `next(iter(s), None)` for a set of strings, given by its distinct elements. -/
  nextStr : List String → Option String
  /-- `next(iter(s), None)` for a set of integers, given by its distinct elements. -/
  nextNat : List Nat → Option Nat
  nextStr_mem : ∀ s x, nextStr s = some x → x ∈ s
  nextStr_none : ∀ s, nextStr s = none → s = []
  nextNat_mem : ∀ s x, nextNat s = some x → x ∈ s
  nextNat_none : ∀ s, nextNat s = none → s = []

/-- The whitespace `str.strip` removes. -/
def isSpace (c : Char) : Bool :=
  let n := c.toNat
  (9 ≤ n && n ≤ 13) || (28 ≤ n && n ≤ 32) || n == 0x85 || n == 0xa0 || n == 0x1680 ||
    (0x2000 ≤ n && n ≤ 0x200a) || n == 0x2028 || n == 0x2029 || n == 0x202f || n == 0x205f ||
    n == 0x3000

/-- `str.strip` -/
def strip (s : String) : String :=
  String.ofList ((s.toList.dropWhile isSpace).reverse.dropWhile isSpace).reverse

/-- `str.startswith` -/
def startsWith (s start : String) : Bool :=
  start.toList.isPrefixOf s.toList

/-- `value.casefold().strip()` -/
def fold (rt : Runtime) (s : String) : String :=
  strip (rt.casefold s)

/-! ## Identifiers -/

def isIdHead (c : Char) : Bool :=
  c.isAlphanum

def isIdTail (c : Char) : Bool :=
  c.isAlphanum || c == '_' || c == '.' || c == ':' || c == '-'

/-- The pattern `[A-Za-z0-9][A-Za-z0-9_.:-]{0,127}`. -/
def isId (s : String) : Bool :=
  match s.toList with
  | [] => false
  | c :: cs => isIdHead c && cs.all isIdTail && decide (cs.length ≤ 127)

/-- `require_id` -/
def requireId (s fieldName : String) : Py Unit :=
  if isId s then .ok ()
  else .error (.domainValidation (fieldName ++ " must be a stable non-empty identifier"))

/-! ## Content hashing -/

/-- `content_hash` -/
def contentHash (rt : Runtime) (v : Value) : Py String :=
  if v.atoms.any Atom.naive then
    .error (.domainValidation "naive datetimes cannot enter canonical artifacts")
  else if v.atoms.any Atom.outOfDomain then
    .error (.domainValidation "RFC 8785 canonicalization failed")
  else .ok ("sha256:" ++ rt.hexdigest v)

/-- `content_hash(value).split(":", 1)[1][:20]` -/
def digest20 (hash : String) : String :=
  String.ofList (((hash.toList.dropWhile (· != ':')).drop 1).take 20)

/-- A value that content hashing accepts. -/
def Value.Canonical (v : Value) : Prop :=
  ∀ a ∈ v.atoms, a.naive = false ∧ a.outOfDomain = false

theorem contentHash_eq_ok {rt : Runtime} {v : Value} {h : String} :
    contentHash rt v = .ok h ↔ v.Canonical ∧ h = "sha256:" ++ rt.hexdigest v := by
  unfold contentHash Value.Canonical
  by_cases hn : v.atoms.any Atom.naive
  · simp only [hn, ↓reduceIte, reduceCtorEq, false_iff, not_and]
    intro hall
    obtain ⟨a, ha, hna⟩ := List.any_eq_true.mp hn
    simp [(hall a ha).1] at hna
  · by_cases ho : v.atoms.any Atom.outOfDomain
    · simp only [hn, ho, ↓reduceIte, reduceCtorEq, false_iff, not_and, Bool.false_eq_true]
      intro hall
      obtain ⟨a, ha, hoa⟩ := List.any_eq_true.mp ho
      simp [(hall a ha).2] at hoa
    · have hcanon : ∀ a ∈ v.atoms, a.naive = false ∧ a.outOfDomain = false := by
        intro a ha
        exact ⟨by simpa using List.any_eq_false.mp (Bool.not_eq_true _ ▸ hn) a ha,
          by simpa using List.any_eq_false.mp (Bool.not_eq_true _ ▸ ho) a ha⟩
      simp only [hn, ho, ↓reduceIte, Except.ok.injEq, Bool.false_eq_true]
      exact ⟨fun h' => ⟨hcanon, h'.symm⟩, fun h' => h'.2.symm⟩

theorem exists_contentHash_eq_ok {rt : Runtime} {v : Value} :
    (∃ h, contentHash rt v = .ok h) ↔ v.Canonical := by
  simp [contentHash_eq_ok]

/-! ## Canonical trees

A value is canonical when its parts are, so the canonicity of a payload reduces
to its integers and timestamps. -/

namespace Value

theorem seqAtoms_cons {x : Value} {xs : List Value} : seqAtoms (x :: xs) = atoms x ++ seqAtoms xs :=
  rfl

theorem fieldAtoms_cons {p : String × Value} {fields : List (String × Value)} :
    fieldAtoms (p :: fields) = atoms p.2 ++ fieldAtoms fields := rfl

theorem mem_seqAtoms {xs : List Value} {a : Atom} : a ∈ seqAtoms xs ↔ ∃ x ∈ xs, a ∈ x.atoms := by
  induction xs with
  | nil =>
    constructor
    · rintro ⟨⟩
    · rintro ⟨_, ⟨⟩, -⟩
  | cons x xs ih => rw [seqAtoms_cons, List.mem_append, ih, List.exists_mem_cons_iff]

theorem mem_fieldAtoms {fields : List (String × Value)} {a : Atom} :
    a ∈ fieldAtoms fields ↔ ∃ p ∈ fields, a ∈ p.2.atoms := by
  induction fields with
  | nil =>
    constructor
    · rintro ⟨⟩
    · rintro ⟨_, ⟨⟩, -⟩
  | cons p fields ih => rw [fieldAtoms_cons, List.mem_append, ih, List.exists_mem_cons_iff]

theorem canonical_atom {a : Atom} :
    (Value.atom a).Canonical ↔ a.naive = false ∧ a.outOfDomain = false :=
  List.forall_mem_singleton

@[simp] theorem canonical_seq {xs : List Value} :
    (Value.seq xs).Canonical ↔ ∀ x ∈ xs, x.Canonical := by
  have hatoms : (Value.seq xs).atoms = seqAtoms xs := rfl
  unfold Canonical
  simp only [hatoms, mem_seqAtoms]
  exact ⟨fun h x hx a ha => h a ⟨x, hx, ha⟩, fun h a ⟨x, hx, ha⟩ => h x hx a ha⟩

@[simp] theorem canonical_obj {fields : List (String × Value)} :
    (Value.obj fields).Canonical ↔ ∀ p ∈ fields, p.2.Canonical := by
  have hatoms : (Value.obj fields).atoms = fieldAtoms fields := rfl
  unfold Canonical
  simp only [hatoms, mem_fieldAtoms]
  exact ⟨fun h p hp a ha => h a ⟨p, hp, ha⟩, fun h a ⟨p, hp, ha⟩ => h p hp a ha⟩

@[simp] theorem canonical_null : (Value.null).Canonical := by
  rw [canonical_atom]
  exact ⟨rfl, rfl⟩

@[simp] theorem canonical_bool (b : Bool) : (Value.bool b).Canonical := by
  rw [canonical_atom]
  exact ⟨rfl, rfl⟩

@[simp] theorem canonical_str (s : String) : (Value.str s).Canonical := by
  rw [canonical_atom]
  exact ⟨rfl, rfl⟩

@[simp] theorem canonical_int {n : Int} :
    (Value.int n).Canonical ↔ -(2 ^ 53) < n ∧ n < 2 ^ 53 := by
  simp [canonical_atom, Atom.naive, Atom.outOfDomain]

@[simp] theorem canonical_ratio {q : ℚ} :
    (Value.ratio q).Canonical ↔ (Value.int q.num).Canonical ∧ (Value.nat q.den).Canonical := by
  simp [ratio]

@[simp] theorem canonical_opt {α : Type} {f : α → Value} {o : Option α} :
    (Value.opt f o).Canonical ↔ ∀ a, o = some a → (f a).Canonical := by
  cases o <;> simp [opt]

end Value

end Domain
