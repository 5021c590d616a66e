-- SUMMARY: Pieces that are placed in a text: when they tile it but for blanks, that tilings of the pieces tile the text, and what a tiling says about each position.
import Mathlib.Data.List.Basic

/-!
# Tilings of a text

A piece is placed in a text by the position of its first letter. Pieces tile a text if they stand in it
one behind the other and only blanks are left out, before, between and behind them.
-/

namespace Tiling

variable {χ : Type}

/-- The pieces tile a text whose first letter is at a position. -/
inductive Tiles (blank : χ → Bool) : Nat → List χ → List (Nat × List χ) → Prop
  | nil {position : Nat} {text : List χ} (h : ∀ c ∈ text, blank c = true) : Tiles blank position text []
  | cons {position : Nat} {gap piece rest : List χ} {pieces : List (Nat × List χ)}
      (hgap : ∀ c ∈ gap, blank c = true) (hpiece : piece ≠ [])
      (hrest : Tiles blank (position + gap.length + piece.length) rest pieces) :
      Tiles blank position (gap ++ (piece ++ rest)) ((position + gap.length, piece) :: pieces)

variable {blank : χ → Bool} {position : Nat} {text : List χ} {pieces : List (Nat × List χ)}

theorem Tiles.skip {gap : List χ} (hgap : ∀ c ∈ gap, blank c = true)
    (h : Tiles blank (position + gap.length) text pieces) : Tiles blank position (gap ++ text) pieces := by
  cases h with
  | nil htext =>
    apply Tiles.nil
    intro c hc
    exact (List.mem_append.mp hc).elim (hgap c) (htext c)
  | @cons _ gap' piece rest pieces hgap' hpiece hrest =>
    have hlength : position + gap.length + gap'.length = position + (gap ++ gap').length := by
      rw [List.length_append, Nat.add_assoc]
    rw [hlength] at hrest ⊢
    rw [← List.append_assoc]
    refine .cons ?_ hpiece hrest
    intro c hc
    exact (List.mem_append.mp hc).elim (hgap c) (hgap' c)

theorem Tiles.append {text' : List χ} {pieces' : List (Nat × List χ)}
    (h : Tiles blank position text pieces) (h' : Tiles blank (position + text.length) text' pieces') :
    Tiles blank position (text ++ text') (pieces ++ pieces') := by
  induction h with
  | nil htext => exact h'.skip htext
  | @cons position gap piece rest pieces hgap hpiece _ ih =>
    rw [List.append_assoc, List.append_assoc, List.cons_append]
    refine .cons hgap hpiece (ih ?_)
    have hlength : position + (gap ++ (piece ++ rest)).length =
        position + gap.length + piece.length + rest.length := by
      simp only [List.length_append]
      omega
    rw [← hlength]
    exact h'

theorem Tiles.shift (offset : Nat) (h : Tiles blank position text pieces) :
    Tiles blank (offset + position) text (pieces.map (fun p => (offset + p.1, p.2))) := by
  induction h with
  | nil htext => exact .nil htext
  | @cons position gap piece rest pieces hgap hpiece _ ih =>
    rw [List.map_cons]
    have hfirst : offset + (position + gap.length) = offset + position + gap.length := by omega
    have hnext : offset + (position + gap.length + piece.length) =
        offset + position + gap.length + piece.length := by omega
    rw [hfirst]
    rw [hnext] at ih
    exact .cons hgap hpiece ih

theorem Tiles.flatMap (h : Tiles blank position text pieces)
    {parts : Nat × List χ → List (Nat × List χ)}
    (hparts : ∀ p ∈ pieces, Tiles blank p.1 p.2 (parts p)) :
    Tiles blank position text (pieces.flatMap parts) := by
  induction h with
  | nil htext => exact .nil htext
  | cons hgap _ _ ih =>
    obtain ⟨hfirst, hrest⟩ := List.forall_mem_cons.mp hparts
    rw [List.flatMap_cons]
    exact Tiles.skip hgap (hfirst.append (ih hrest))

/-! ## Positions -/

theorem Tiles.le_of_mem (h : Tiles blank position text pieces) :
    ∀ p ∈ pieces, position ≤ p.1 ∧ p.2 ≠ [] := by
  induction h with
  | nil => simp
  | @cons position gap piece rest pieces _ hpiece _ ih =>
    rw [List.forall_mem_cons]
    refine ⟨⟨Nat.le_add_right _ _, hpiece⟩, fun p hp => ?_⟩
    obtain ⟨hle, hne⟩ := ih p hp
    exact ⟨by omega, hne⟩

theorem Tiles.stop_le (h : Tiles blank position text pieces) :
    ∀ p ∈ pieces, p.1 + p.2.length ≤ position + text.length := by
  induction h with
  | nil => simp
  | cons _ _ _ ih =>
    simp only [List.forall_mem_cons, List.length_append]
    refine ⟨by omega, fun p hp => ?_⟩
    have hle := ih p hp
    omega

theorem Tiles.pairwise (h : Tiles blank position text pieces) :
    pieces.Pairwise (fun p q => p.1 + p.2.length ≤ q.1) := by
  induction h with
  | nil => exact .nil
  | cons _ _ hrest ih => exact .cons (fun q hq => (hrest.le_of_mem q hq).1) ih

theorem Tiles.slice (h : Tiles blank position text pieces) :
    ∀ p ∈ pieces, (text.drop (p.1 - position)).take p.2.length = p.2 := by
  induction h with
  | nil => simp
  | @cons position gap piece rest pieces _ _ hrest ih =>
    rw [List.forall_mem_cons]
    constructor
    · simp
    · intro p hp
      obtain ⟨hle, -⟩ := hrest.le_of_mem p hp
      have hsplit : p.1 - position = gap.length + (piece.length +
          (p.1 - (position + gap.length + piece.length))) := by omega
      rw [hsplit, ← List.drop_drop, List.drop_left, ← List.drop_drop, List.drop_left]
      exact ih p hp

/-- The position is one of a piece. -/
def Covers (p : Nat × List χ) (i : Nat) : Prop :=
  p.1 ≤ i ∧ i < p.1 + p.2.length

theorem Tiles.exists_covers (h : Tiles blank position text pieces) {i : Nat} {c : χ}
    (hi : text[i]? = some c) (hc : blank c = false) : ∃ p ∈ pieces, Covers p (position + i) := by
  induction h generalizing i with
  | nil htext =>
    have hmem := List.mem_of_getElem? hi
    rw [htext c hmem] at hc
    cases hc
  | @cons position gap piece rest pieces hgap _ _ ih =>
    by_cases hbefore : i < gap.length
    · rw [List.getElem?_append_left hbefore] at hi
      rw [hgap c (List.mem_of_getElem? hi)] at hc
      cases hc
    · rw [List.getElem?_append_right (Nat.not_lt.mp hbefore)] at hi
      by_cases hin : i - gap.length < piece.length
      · refine ⟨_, List.mem_cons_self, ?_⟩
        constructor
        · show position + gap.length ≤ position + i
          omega
        · show position + i < position + gap.length + piece.length
          omega
      · rw [List.getElem?_append_right (Nat.not_lt.mp hin)] at hi
        obtain ⟨p, hp, hcovers⟩ := ih hi
        refine ⟨p, List.mem_cons_of_mem _ hp, ?_⟩
        have hposition : position + gap.length + piece.length + (i - gap.length - piece.length) =
            position + i := by omega
        rw [← hposition]
        exact hcovers

theorem Tiles.covers_unique (h : Tiles blank position text pieces) (i : Nat) {p q : Nat × List χ}
    (hp : p ∈ pieces) (hq : q ∈ pieces) (hip : Covers p i) (hiq : Covers q i) : p = q := by
  have hall := @List.Pairwise.forall_of_forall_of_flip _ pieces
    (fun p q : Nat × List χ => Covers p i → Covers q i → p = q) (fun _ _ _ _ => rfl)
    (h.pairwise.imp (fun hle hip hiq => absurd (Nat.lt_of_lt_of_le hip.2 hle) (Nat.not_lt.mpr hiq.1)))
    (h.pairwise.imp (fun hle hiq hip => absurd (Nat.lt_of_lt_of_le hip.2 hle) (Nat.not_lt.mpr hiq.1)))
  exact hall hp hq hip hiq

end Tiling
