-- SUMMARY: Matchers that list what is left of a text in the order in which a backtracking engine tries it, and the matches that a search finds one behind the other.
import SiraSeil.Library.Tiling

/-!
# Backtracking matchers

A matcher takes a text and lists what can be left of it after a match, the preferred one first. The
first entry is the match that an engine returns.
-/

namespace Backtracking

variable {χ : Type}

/-- What can be left of a text, in the order of preference -/
abbrev Matcher (χ : Type) := List χ → List (List χ)

/-- One letter of a class -/
def one (p : χ → Bool) : Matcher χ
  | [] => []
  | c :: rest => if p c then [rest] else []

/-- As many letters of a class as possible, then fewer -/
def many (p : χ → Bool) : Matcher χ
  | [] => [[]]
  | c :: rest => if p c then many p rest ++ [c :: rest] else [c :: rest]

/-- As few letters of a class as possible, then more -/
def manyLazy (p : χ → Bool) : Matcher χ
  | [] => [[]]
  | c :: rest => (c :: rest) :: if p c then manyLazy p rest else []

/-- One match and another behind it -/
def seq (m n : Matcher χ) : Matcher χ := fun text => (m text).flatMap n

/-- A match of the first, then of the second -/
def orElse (m n : Matcher χ) : Matcher χ := fun text => m text ++ n text

/-- A match, then none -/
def optional (m : Matcher χ) : Matcher χ := fun text => m text ++ [text]

/-- A match that takes nothing -/
def ahead (m : Matcher χ) : Matcher χ := fun text => if (m text).isEmpty then [] else [text]

/-- The end of the text -/
def atEnd : Matcher χ
  | [] => [[]]
  | _ => []

/-- The matches that a search finds, each with its position. A match takes at least one letter. -/
def findIter (m : Matcher χ) : Nat → Nat → List χ → List (Nat × List χ)
  | 0, _, _ => []
  | _ + 1, _, [] => []
  | steps + 1, position, c :: text =>
    match (m (c :: text)).head? with
    | none => findIter m steps (position + 1) text
    | some rest =>
      let found := (c :: text).take ((c :: text).length - rest.length)
      (position, found) :: findIter m steps (position + found.length) rest

variable {p : χ → Bool} {rest text : List χ} {m : Matcher χ}

theorem mem_many : rest ∈ many p text ↔ ∃ seen, text = seen ++ rest ∧ ∀ c ∈ seen, p c = true := by
  induction text with
  | nil =>
    simp only [many, List.mem_singleton, List.nil_eq, List.append_eq_nil_iff]
    constructor
    · rintro rfl
      exact ⟨[], ⟨rfl, rfl⟩, by simp⟩
    · rintro ⟨seen, ⟨-, rfl⟩, -⟩
      rfl
  | cons c text ih =>
    have hcases : rest ∈ many p (c :: text) ↔ p c = true ∧ rest ∈ many p text ∨ rest = c :: text := by
      rw [many]
      split
      next hp => simp [hp]
      next hp => simp [hp]
    rw [hcases, ih]
    constructor
    · rintro (⟨hp, seen, rfl, hseen⟩ | rfl)
      · exact ⟨c :: seen, rfl, List.forall_mem_cons.mpr ⟨hp, hseen⟩⟩
      · exact ⟨[], rfl, by simp⟩
    · rintro ⟨seen, htext, hseen⟩
      cases seen with
      | nil => exact .inr htext.symm
      | cons d seen =>
        cases htext
        obtain ⟨hp, hseen⟩ := List.forall_mem_cons.mp hseen
        exact .inl ⟨hp, seen, rfl, hseen⟩

theorem mem_manyLazy :
    rest ∈ manyLazy p text ↔ ∃ seen, text = seen ++ rest ∧ ∀ c ∈ seen, p c = true := by
  rw [← mem_many]
  induction text with
  | nil => rfl
  | cons c text ih =>
    rw [manyLazy, many]
    split
    next hp => simp [ih, or_comm]
    next hp => rfl

theorem mem_one : rest ∈ one p text ↔ ∃ c, text = c :: rest ∧ p c = true := by
  cases text with
  | nil => simp [one]
  | cons c text =>
    rw [one]
    split
    next hp =>
      simp only [List.mem_singleton, List.cons.injEq]
      constructor
      · rintro rfl
        exact ⟨c, ⟨rfl, rfl⟩, hp⟩
      · rintro ⟨d, ⟨rfl, rfl⟩, -⟩
        rfl
    next hp =>
      simp only [List.not_mem_nil, List.cons.injEq, false_iff, not_exists, not_and]
      rintro d ⟨rfl, -⟩
      exact hp

@[simp] theorem mem_seq {n : Matcher χ} :
    rest ∈ seq m n text ↔ ∃ middle ∈ m text, rest ∈ n middle :=
  List.mem_flatMap

@[simp] theorem mem_orElse {n : Matcher χ} :
    rest ∈ orElse m n text ↔ rest ∈ m text ∨ rest ∈ n text :=
  List.mem_append

@[simp] theorem mem_optional : rest ∈ optional m text ↔ rest ∈ m text ∨ rest = text := by
  simp [optional]

@[simp] theorem mem_ahead : rest ∈ ahead m text ↔ rest = text ∧ ∃ r, r ∈ m text := by
  unfold ahead
  split
  next hempty => simp [List.isEmpty_iff.mp hempty]
  next hempty =>
    have hexists : ∃ r, r ∈ m text := by
      apply List.exists_mem_of_ne_nil
      intro hnil
      exact hempty (List.isEmpty_iff.mpr hnil)
    simp [hexists]

@[simp] theorem mem_atEnd : rest ∈ atEnd text ↔ text = [] ∧ rest = [] := by
  cases text with
  | nil => simp [atEnd]
  | cons c text => simp [atEnd]

/-- The matches of a search tile the text, if a match takes a letter and there is one at every letter
    that is no blank. -/
theorem tiles_findIter {blank : χ → Bool}
    (htakes : ∀ text rest, rest ∈ m text → ∃ found, found ≠ [] ∧ text = found ++ rest)
    (hmatches : ∀ c text, blank c = false → ∃ rest, rest ∈ m (c :: text)) {steps position : Nat}
    (hsteps : text.length ≤ steps) :
    Tiling.Tiles blank position text (findIter m steps position text) := by
  induction steps generalizing position text with
  | zero =>
    have hnil := List.length_eq_zero_iff.mp (Nat.le_zero.mp hsteps)
    subst hnil
    exact .nil (by simp)
  | succ steps ih =>
    cases text with
    | nil => exact .nil (by simp)
    | cons c text =>
      unfold findIter
      cases hhead : (m (c :: text)).head? with
      | none =>
        have hnil : m (c :: text) = [] := List.head?_eq_none_iff.mp hhead
        have hblank : blank c = true := by
          by_contra hc
          obtain ⟨rest, hrest⟩ := hmatches c text (Bool.not_eq_true _ ▸ hc)
          rw [hnil] at hrest
          cases hrest
        have hskipped : Tiling.Tiles blank (position + [c].length) text
            (findIter m steps (position + 1) text) := ih (Nat.le_of_succ_le_succ hsteps)
        exact @Tiling.Tiles.skip _ _ position text _ [c] (by simpa using hblank) hskipped
      | some rest =>
        obtain ⟨found, hfound, htext⟩ := htakes _ rest (List.mem_of_head? hhead)
        have hlength : (c :: text).length - rest.length = found.length := by
          rw [htext, List.length_append, Nat.add_sub_cancel]
        have hshort : rest.length ≤ steps := by
          have hpositive := List.length_pos_iff.mpr hfound
          have htotal : (c :: text).length = found.length + rest.length := by
            rw [htext, List.length_append]
          omega
        simp only [hlength]
        rw [htext, List.take_left]
        exact @Tiling.Tiles.cons _ _ position [] found rest _ (by simp) hfound (ih hshort)

end Backtracking
