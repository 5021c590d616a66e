-- SUMMARY: Combinations of a sorted list in lexicographic order, and the search for the smallest combinations that pass a test.
import Mathlib.Data.List.Lex
import Mathlib.Data.List.Sublists
import Mathlib.Order.Lattice
import SiraSeil.Library.Raising

/-!
# Subset search

`combinations k l` lists the sublists of length `k` in the order of their
positions. The search tries one cardinality after the other and stops after the
first one at which some combination passes.
-/

namespace SubsetSearch

open Raising

universe u

/-! ## Combinations -/

section Combinations

variable {α : Type u}

def combinations : Nat → List α → List (List α)
  | 0, _ => [[]]
  | _ + 1, [] => []
  | k + 1, x :: xs => (combinations k xs).map (x :: ·) ++ combinations (k + 1) xs

theorem mem_combinations {k : Nat} {l c : List α} :
    c ∈ combinations k l ↔ c.Sublist l ∧ c.length = k := by
  fun_induction combinations k l generalizing c with
  | case1 l =>
    rw [List.mem_singleton, List.length_eq_zero_iff]
    exact ⟨fun h => ⟨h ▸ l.nil_sublist, h⟩, And.right⟩
  | case2 k =>
    have hempty : ¬ (c.Sublist [] ∧ c.length = k + 1) := fun ⟨hsub, hlen⟩ => by
      simp [List.sublist_nil.mp hsub] at hlen
    exact iff_of_false List.not_mem_nil hempty
  | case3 k x xs ihTake ihSkip =>
    rw [List.mem_append, ihSkip, List.sublist_cons_iff, List.mem_map]
    cases c with
    | nil => simp
    | cons y c =>
      have htake : (∃ d ∈ combinations k xs, x :: d = y :: c) ↔ x = y ∧ c.Sublist xs ∧ c.length = k := by
        simp only [List.cons.injEq, ← ihTake]
        exact ⟨fun ⟨d, hd, hxy, hdc⟩ => ⟨hxy, hdc ▸ hd⟩, fun ⟨hxy, hc⟩ => ⟨c, hc, hxy, rfl⟩⟩
      rw [htake]
      simp only [List.cons.injEq, List.length_cons, Nat.add_right_cancel_iff]
      grind

theorem combinations_pairwise_lt [LinearOrder α] {l : List α} (hl : l.Pairwise (· < ·)) (k : Nat) :
    (combinations k l).Pairwise (· < ·) := by
  induction l generalizing k with
  | nil => cases k <;> simp [combinations]
  | cons x xs ih =>
    obtain ⟨hx, hxs⟩ := List.pairwise_cons.mp hl
    cases k with
    | zero => simp [combinations]
    | succ k =>
      refine List.pairwise_append.mpr ⟨?_, ih hxs (k + 1), ?_⟩
      · refine List.pairwise_map.mpr ((ih hxs k).imp ?_)
        intro c d hcd
        exact List.cons_lt_cons_iff.mpr (Or.inr ⟨rfl, hcd⟩)
      · -- What starts with `x` precedes what starts with a later element.
        intro c hc d hd
        obtain ⟨c', -, rfl⟩ := List.mem_map.mp hc
        obtain ⟨hsub, hlen⟩ := mem_combinations.mp hd
        cases d with
        | nil => simp at hlen
        | cons y d =>
          have hy : y ∈ xs := hsub.subset List.mem_cons_self
          exact List.cons_lt_cons_iff.mpr (Or.inl (hx y hy))

end Combinations

/-! ## Search -/

section Search

variable {ε : Type u} {α β : Type u}

/-- The combinations of one cardinality that pass, each with what the test returned. -/
def passing (test : List α → Except ε (Option β)) (l : List α) (k : Nat) :
    Except ε (List (List α × β)) := do
  let tested ← (combinations k l).mapM (fun c => do return (c, ← test c))
  return tested.filterMap (fun p => p.2.map (fun b => (p.1, b)))

/-- Tries the cardinalities in turn and stops after the first that has a pass. -/
def search (test : List α → Except ε (Option β)) (l : List α) :
    List Nat → Except ε (List (List α × β))
  | [] => .ok []
  | k :: ks => do
    let winners ← passing test l k
    if winners.isEmpty then search test l ks else return winners

variable {test : List α → Except ε (Option β)} {verdict : List α → Option β} {l : List α}

theorem passing_eq_ok {k : Nat}
    (htest : ∀ c, c.Sublist l → c.length = k → test c = .ok (verdict c)) :
    passing test l k = .ok ((combinations k l).filterMap
      (fun c => (verdict c).map (fun b => (c, b)))) := by
  have htested : (combinations k l).mapM (fun c => do return (c, ← test c)) =
      .ok ((combinations k l).map (fun c => (c, verdict c))) := by
    refine mapM_eq_ok.mpr (List.forall₂_map_right_iff.mpr (List.forall₂_same.mpr ?_))
    intro c hc
    obtain ⟨hsub, hlen⟩ := mem_combinations.mp hc
    simp only [htest c hsub hlen, ok_bind]
    rfl
  simp only [passing, htested, ok_bind, List.filterMap_map]
  rfl

/-- What a finished search has found: everything that passes at the least
    cardinality that has a pass, or nothing when no tried cardinality has one. -/
structure Found (verdict : List α → Option β) (l : List α) (levels : List Nat)
    (winners : List (List α × β)) : Prop where
  none_passes : winners = [] → ∀ c, c.Sublist l → c.length ∈ levels → verdict c = none
  least : winners ≠ [] → ∃ k ∈ levels,
    winners = (combinations k l).filterMap (fun c => (verdict c).map (fun b => (c, b))) ∧
    ∀ c, c.Sublist l → c.length ∈ levels → c.length < k → verdict c = none

theorem search_eq_ok (test : List α → Except ε (Option β)) (verdict : List α → Option β)
    (l : List α) {levels : List Nat} (hlevels : levels.Pairwise (· < ·))
    (htest : ∀ c, c.Sublist l → c.length ∈ levels → test c = .ok (verdict c)) :
    ∃ winners, search test l levels = .ok winners ∧ Found verdict l levels winners := by
  induction levels with
  | nil => exact ⟨[], rfl, ⟨fun _ c _ hc => by simp at hc, fun h => absurd rfl h⟩⟩
  | cons k ks ih =>
    obtain ⟨hk, hks⟩ := List.pairwise_cons.mp hlevels
    have hpass := passing_eq_ok (fun c hsub hlen =>
      htest c hsub (hlen ▸ List.mem_cons_self))
    simp only [search, hpass, ok_bind]
    generalize hw : (combinations k l).filterMap (fun c => (verdict c).map (fun b => (c, b))) =
      winners
    cases winners with
    | cons w ws =>
      refine ⟨w :: ws, rfl, ⟨by simp, fun _ => ⟨k, List.mem_cons_self, hw.symm, ?_⟩⟩⟩
      intro c hsub hmem hlt
      rcases List.mem_cons.mp hmem with heq | hmem
      · omega
      · have := hk _ hmem
        omega
    | nil =>
      have hnone : ∀ c, c.Sublist l → c.length = k → verdict c = none := by
        intro c hsub hlen
        have := List.filterMap_eq_nil_iff.mp hw c (mem_combinations.mpr ⟨hsub, hlen⟩)
        simpa using this
      obtain ⟨winners, hsearch, hfound⟩ :=
        ih hks (fun c hsub hlen => htest c hsub (List.mem_cons_of_mem k hlen))
      refine ⟨winners, hsearch, ⟨?_, ?_⟩⟩
      · intro hempty c hsub hmem
        rcases List.mem_cons.mp hmem with hlen | hmem
        · exact hnone c hsub hlen
        · exact hfound.none_passes hempty c hsub hmem
      · intro hne
        obtain ⟨j, hj, hwin, hless⟩ := hfound.least hne
        refine ⟨j, List.mem_cons_of_mem k hj, hwin, fun c hsub hmem hlt => ?_⟩
        rcases List.mem_cons.mp hmem with hlen | hmem
        · exact hnone c hsub hlen
        · exact hless c hsub hmem hlt

end Search

end SubsetSearch
