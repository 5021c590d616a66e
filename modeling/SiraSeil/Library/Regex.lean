-- SUMMARY: Regular expressions with word boundaries, and what a bounded repetition finds in a run of letters.
import Mathlib.Data.List.Basic
import Mathlib.Order.Basic

/-!
# Regular expressions

An expression is matched at a cursor: the letters before it, the last one first, and the letters
after it. `ends` lists the cursors at which a match can end, so a search succeeds exactly if some
cursor of the text has one. Which match a backtracking engine prefers makes no difference to that.
-/

/-- `many` takes any number of letters of a class, and `between` a number of matches in a range. -/
inductive Regex (χ : Type)
  | one (p : χ → Bool)
  | many (p : χ → Bool)
  | boundary
  | seq (r s : Regex χ)
  | between (r : Regex χ) (lo hi : Nat)

namespace Regex

variable {χ : Type}

abbrev Cursor (χ : Type) := List χ × List χ

/-- The cursors after any number of letters of a class -/
def run (p : χ → Bool) : List χ → List χ → List (Cursor χ)
  | before, [] => [(before, [])]
  | before, c :: rest => (before, c :: rest) :: if p c then run p (c :: before) rest else []

/-- The cursors after so many matches -/
def times (f : Cursor χ → List (Cursor χ)) : Nat → Cursor χ → List (Cursor χ)
  | 0, c => [c]
  | n + 1, c => (f c).flatMap (times f n)

/-- Whether a cursor is between a letter of a word and another letter, or an end of the text -/
def atBoundary (word : χ → Bool) (c : Cursor χ) : Bool :=
  c.1.head?.any word != c.2.head?.any word

/-- The cursors at which a match can end -/
def ends (word : χ → Bool) : Regex χ → Cursor χ → List (Cursor χ)
  | one p, (before, c :: rest) => if p c then [(c :: before, rest)] else []
  | one _, (_, []) => []
  | many p, c => run p c.1 c.2
  | boundary, c => if atBoundary word c then [c] else []
  | seq r s, c => (ends word r c).flatMap (ends word s)
  | between r lo hi, c => (List.range' lo (hi + 1 - lo)).flatMap (fun n => times (ends word r) n c)

/-- The cursors of a text from one on -/
def cursors : List χ → List χ → List (Cursor χ)
  | before, [] => [(before, [])]
  | before, c :: rest => (before, c :: rest) :: cursors (c :: before) rest

/-- `pattern.search(text)` finds a match. -/
def search (word : χ → Bool) (r : Regex χ) (text : List χ) : Bool :=
  (cursors [] text).any (fun c => !(ends word r c).isEmpty)

variable {word : χ → Bool}

variable {c e : Cursor χ} {r : Regex χ} {text : List χ}

variable {before rest : List χ} {a : χ} {p q : χ → Bool}

theorem ends_one_nil : ends word (one p) (before, []) = [] := rfl

theorem ends_one_cons :
    ends word (one p) (before, a :: rest) = if p a then [(a :: before, rest)] else [] := rfl

theorem ends_boundary : ends word boundary c = if atBoundary word c then [c] else [] := rfl

theorem ends_seq {s : Regex χ} :
    ends word (seq r s) c = (ends word r c).flatMap (ends word s) := rfl

@[simp] theorem mem_ends_boundary :
    e ∈ ends word boundary c ↔ e = c ∧ atBoundary word c = true := by
  rw [ends_boundary]
  split
  · next h => simp [h]
  · next h => simp [h]

@[simp] theorem mem_ends_seq {s : Regex χ} :
    e ∈ ends word (seq r s) c ↔ ∃ d ∈ ends word r c, e ∈ ends word s d := by
  rw [ends_seq, List.mem_flatMap]

@[simp] theorem mem_ends_between {lo hi : Nat} :
    e ∈ ends word (between r lo hi) c ↔
      ∃ n, (lo ≤ n ∧ n ≤ hi) ∧ e ∈ times (ends word r) n c := by
  have hends : ends word (between r lo hi) c =
      (List.range' lo (hi + 1 - lo)).flatMap (fun n => times (ends word r) n c) := rfl
  rw [hends]
  simp only [List.mem_flatMap, List.mem_range'_1]
  refine exists_congr fun n => and_congr_left fun _ => ?_
  omega

theorem search_eq_true :
    search word r text = true ↔ ∃ c ∈ cursors [] text, ∃ e, e ∈ ends word r c := by
  unfold search
  rw [List.any_eq_true]
  refine exists_congr fun c => and_congr_right fun _ => ?_
  rw [Bool.not_eq_true', List.isEmpty_eq_false_iff_exists_mem]

theorem mem_cursors {before : List χ} :
    c ∈ cursors before text ↔ ∃ seen rest, text = seen ++ rest ∧ c = (seen.reverse ++ before, rest) := by
  induction text generalizing before with
  | nil =>
    simp only [cursors, List.mem_singleton, List.nil_eq, List.append_eq_nil_iff]
    constructor
    · rintro rfl
      exact ⟨[], [], ⟨rfl, rfl⟩, rfl⟩
    · rintro ⟨seen, rest, ⟨rfl, rfl⟩, rfl⟩
      rfl
  | cons a text ih =>
    simp only [cursors, List.mem_cons, ih]
    constructor
    · rintro (rfl | ⟨seen, rest, rfl, rfl⟩)
      · exact ⟨[], a :: text, rfl, rfl⟩
      · exact ⟨a :: seen, rest, rfl, by simp⟩
    · rintro ⟨seen, rest, htext, rfl⟩
      cases seen with
      | nil =>
        left
        simp only [List.nil_append] at htext
        rw [← htext]
        rfl
      | cons b seen =>
        right
        simp only [List.cons_append, List.cons.injEq] at htext
        obtain ⟨rfl, rfl⟩ := htext
        exact ⟨seen, rest, rfl, by simp⟩

theorem exists_of_search_one
    (h : search word (seq boundary (seq (one p) r)) text = true) : ∃ c ∈ text, p c = true := by
  obtain ⟨c, hc, e, he⟩ := (search_eq_true).mp h
  obtain ⟨seen, rest, rfl, rfl⟩ := (mem_cursors).mp hc
  simp only [mem_ends_seq, mem_ends_boundary] at he
  obtain ⟨d, ⟨rfl, -⟩, d', hd', -⟩ := he
  cases rest with
  | nil => cases hd'
  | cons a rest =>
    rw [ends_one_cons] at hd'
    split at hd'
    · next hp => exact ⟨a, by simp, hp⟩
    · cases hd'

/-! ## Repetitions in a run of letters -/

section Runs

theorem ends_one_many (hq : ∀ c ∈ rest, q c = false) :
    ends word (seq (one p) (many q)) (before, rest) = ends word (one p) (before, rest) := by
  cases rest with
  | nil => rfl
  | cons c rest =>
    have hrun : run q (c :: before) rest = [(c :: before, rest)] := by
      cases rest with
      | nil => rfl
      | cons d rest =>
        unfold run
        rw [hq d (by simp)]
        rfl
    rw [ends_seq, ends_one_cons]
    split
    · rw [List.flatMap_singleton]
      exact hrun
    · rfl

theorem times_one {f : Cursor χ → List (Cursor χ)} {text : List χ} (hp : ∀ c ∈ text, p c = true)
    (hf : ∀ before rest, rest <:+ text → f (before, rest) = ends word (one p) (before, rest))
    {n : Nat} :
    times f n (before, text) =
      if n ≤ text.length then [((text.take n).reverse ++ before, text.drop n)] else [] := by
  induction n generalizing before text with
  | zero => simp [times]
  | succ n ih =>
    cases text with
    | nil => simp [times, hf before [] List.suffix_rfl, ends_one_nil]
    | cons c text =>
      have hrest := @ih (c :: before) text
        (fun d hd => hp d (List.mem_cons_of_mem c hd))
        (fun before rest hsuffix => hf before rest (hsuffix.trans (List.suffix_cons c text)))
      simp [times, hf before _ List.suffix_rfl, ends_one_cons, hp c, hrest]

end Runs

end Regex
