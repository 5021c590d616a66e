-- SUMMARY: Reading a sorted table page by page after a cursor: following the cursors reads every row once and comes to an end.
import Mathlib.Order.Lattice
import SiraSeil.Library.Raising

/-!
# Paging

A page is the head of the rows behind a cursor, with one row more looked up to see
whether another page follows. The cursor of the next page names the last row of this
one. A source serves a table if each cursor selects what is behind its row.
-/

namespace Paging

variable {ε α β γ : Type}

/-- A page, and the cursor of the next one. -/
structure Page (β γ : Type) where
  items : List β
  next : Option γ

/-- The page at the head of the rows that are left. -/
def pageOf (view : α → β) (cursor : α → γ) (limit : Nat) (rest : List α) : Page β γ :=
  let rows := rest.take (limit + 1)
  { items := (rows.take limit).map view
    next := if limit < rows.length then (rows.take limit).getLast?.map cursor else none }

/-- The items of all pages from a cursor on; none if they are more pages than the fuel. -/
def follow (fetch : Option γ → Except ε (Page β γ)) : Nat → Option γ → Except ε (Option (List β))
  | 0, _ => .ok none
  | fuel + 1, cursor => do
    let page ← fetch cursor
    match page.next with
    | none => return some page.items
    | some next => return (← follow fetch fuel (some next)).map (page.items ++ ·)

/-- Wherever the rows are cut, the cursor of the last row before the cut selects what is
    behind it. -/
def Serves (fetch : Option γ → Except ε (Page β γ)) (view : α → β) (cursor : α → γ) (limit : Nat)
    (rows : List α) : Prop :=
  ∀ seen rest, rows = seen ++ rest →
    fetch (seen.getLast?.map cursor) = .ok (pageOf view cursor limit rest)

section Pages

variable {fetch : Option γ → Except ε (Page β γ)} {view : α → β} {cursor : α → γ} {limit : Nat}
  {rows seen rest : List α}

theorem pageOf_items : (pageOf view cursor limit rest).items = (rest.take limit).map view := by
  simp [pageOf, List.take_take]

theorem pageOf_next :
    (pageOf view cursor limit rest).next =
      if limit < rest.length then (rest.take limit).getLast?.map cursor else none := by
  simp only [pageOf, List.take_take, Nat.min_eq_left (Nat.le_succ limit), List.length_take]
  exact if_congr (by omega) rfl rfl

theorem follow_of_serves (h : Serves fetch view cursor limit rows) (hlimit : 1 ≤ limit)
    (hrows : rows = seen ++ rest) {fuel : Nat} (hfuel : rest.length < fuel) :
    follow fetch fuel (seen.getLast?.map cursor) = .ok (some (rest.map view)) := by
  induction fuel generalizing seen rest with
  | zero => omega
  | succ fuel ih =>
    unfold follow
    rw [h seen rest hrows, Raising.ok_bind, pageOf_next, pageOf_items]
    by_cases hmore : limit < rest.length
    · have hpage : rest.take limit ≠ [] := by
        rw [ne_eq, List.take_eq_nil_iff, not_or]
        exact ⟨by omega, List.ne_nil_of_length_pos (by omega)⟩
      -- the next cut is behind this page
      have hcut : rows = (seen ++ rest.take limit) ++ rest.drop limit := by
        rw [List.append_assoc, List.take_append_drop, hrows]
      have hlater := ih hcut (by rw [List.length_drop]; omega)
      rw [List.getLast?_append_of_ne_nil _ hpage] at hlater
      rw [if_pos hmore]
      cases hlast : (rest.take limit).getLast? with
      | none => exact absurd (List.getLast?_eq_none_iff.mp hlast) hpage
      | some last =>
        rw [hlast] at hlater
        simp only [Option.map_some] at hlater ⊢
        rw [hlater, Raising.ok_bind, Option.map_some, ← List.map_append, List.take_append_drop]
        rfl
    · rw [if_neg hmore, List.take_of_length_le (Nat.not_lt.mp hmore)]
      rfl

/-- Following the cursors from the start reads the table, in as many pages as it has rows
    at most. -/
theorem follow_all (h : Serves fetch view cursor limit rows) (hlimit : 1 ≤ limit) {fuel : Nat}
    (hfuel : rows.length < fuel) : follow fetch fuel none = .ok (some (rows.map view)) :=
  follow_of_serves h hlimit (show rows = [] ++ rows from rfl) hfuel

end Pages

theorem filter_behind {κ : Type*} [LinearOrder κ] {key : α → κ} {seen rest : List α} {last : α}
    (hsorted : (seen ++ rest).Pairwise (fun a b => key a < key b)) (hlast : seen.getLast? = some last) :
    (seen ++ rest).filter (fun a => key last < key a) = rest := by
  obtain ⟨init, rfl⟩ := List.getLast?_eq_some_iff.mp hlast
  rw [List.pairwise_append] at hsorted
  obtain ⟨hseen, -, hcross⟩ := hsorted
  have hbefore : (init ++ [last]).filter (fun a => key last < key a) = [] := by
    refine List.filter_eq_nil_iff.mpr fun a ha => ?_
    rw [decide_eq_true_eq, not_lt]
    rcases List.mem_append.mp ha with ha | ha
    · exact ((List.pairwise_append.mp hseen).2.2 a ha last (List.mem_singleton_self last)).le
    · rw [List.mem_singleton.mp ha]
  have hbehind : rest.filter (fun a => key last < key a) = rest := by
    refine List.filter_eq_self.mpr fun a ha => decide_eq_true ?_
    exact hcross last (List.mem_append_right _ (List.mem_singleton_self last)) a ha
  rw [List.filter_append, hbefore, hbehind, List.nil_append]

end Paging
