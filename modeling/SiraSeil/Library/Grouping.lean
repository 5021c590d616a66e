-- SUMMARY: Lists of entries under keys: the group of a key, the dictionary that keeps the last entry of each group, the one that accumulates it, and sums that are equal because the sums of all groups are.
import SiraSeil.Library.Dict
import SiraSeil.Library.Raising
import Mathlib.Algebra.BigOperators.Group.Finset.Piecewise

/-!
# Grouping

A dictionary comprehension over entries keeps the last one of every key; a loop that adds to what
a key already has keeps their total. Both see an entry only with those of its key.
-/

namespace Grouping

open Raising

variable {κ α β : Type} [DecidableEq κ]

/-- The entries of a key, in their order -/
def group (l : List (κ × α)) (k : κ) : List α :=
  (l.filter (fun p => decide (p.1 = k))).map Prod.snd

@[simp] theorem group_nil (k : κ) : group ([] : List (κ × α)) k = [] := rfl

theorem group_cons (p : κ × α) (l : List (κ × α)) (k : κ) :
    group (p :: l) k = if p.1 = k then p.2 :: group l k else group l k := by
  unfold group
  by_cases h : p.1 = k <;> simp [h]

theorem group_append (l l' : List (κ × α)) (k : κ) : group (l ++ l') k = group l k ++ group l' k := by
  simp [group]

theorem group_map (f : α → β) (l : List (κ × α)) (k : κ) :
    group (l.map (fun p => (p.1, f p.2))) k = (group l k).map f := by
  induction l with
  | nil => rfl
  | cons p l ih =>
    rw [List.map_cons, group_cons, group_cons, ih]
    split <;> rfl

theorem mem_group {l : List (κ × α)} {k : κ} {a : α} : a ∈ group l k ↔ (k, a) ∈ l := by
  simp [group]

/-! ## The last entry -/

theorem get?_ofList_eq_getLast? (l : List (κ × α)) (k : κ) :
    (Dict.ofList l).get? k = (group l k).getLast? := by
  induction l using List.reverseRecOn with
  | nil => rfl
  | append_singleton l p ih =>
    rw [Dict.ofList_concat, Dict.get?_set, ih, group_append, group_cons]
    by_cases h : p.1 = k
    · simp [h]
    · simp [h, Ne.symm h]

/-! ## Accumulated entries -/

section Accumulate

variable {ε : Type} (add : α → β → Except ε α) (zero : α)

/-- `totals[key] = totals.get(key, zero) + value` -/
def accumulateOne (d : Dict κ α) (p : κ × β) : Except ε (Dict κ α) := do
  let total ← add ((d.get? p.1).getD zero) p.2
  return d.set p.1 total

def accumulate (l : List (κ × β)) (d : Dict κ α) : Except ε (Dict κ α) :=
  l.foldlM (accumulateOne add zero) d

/-- What a key holds after its group is added to what it had -/
def added (had : Option α) (values : List β) : Except ε (Option α) :=
  if values.isEmpty then .ok had else (values.foldlM add (had.getD zero)).map some

variable {add zero}

theorem added_cons (had : Option α) (v : β) (values : List β) :
    added add zero had (v :: values) = (do
      let total ← add (had.getD zero) v
      added add zero (some total) values) := by
  simp only [added, List.isEmpty_cons, Bool.false_eq_true, if_false, List.foldlM_cons]
  cases hadd : add (had.getD zero) v with
  | error e => rfl
  | ok total => cases values <;> rfl

theorem added_none_eq_ok {values : List β} {held : Option α} :
    added add zero none values = .ok held ↔ (values = [] ∧ held = none) ∨
      values ≠ [] ∧ ∃ total, held = some total ∧ values.foldlM add zero = .ok total := by
  unfold added
  cases values with
  | nil => simp [eq_comm]
  | cons v values =>
    simp only [List.isEmpty_cons, Bool.false_eq_true, if_false, Option.getD_none]
    cases (v :: values).foldlM add zero <;> simp [Except.map, eq_comm]

theorem get?_accumulate {l : List (κ × β)} {d d' : Dict κ α}
    (h : accumulate add zero l d = .ok d') (k : κ) :
    added add zero (d.get? k) (group l k) = .ok (d'.get? k) := by
  induction l generalizing d with
  | nil =>
    cases h
    rfl
  | cons p l ih =>
    unfold accumulate at h
    rw [List.foldlM_cons] at h
    obtain ⟨next, hnext, hrest⟩ := bind_eq_ok.mp h
    obtain ⟨total, htotal, hset⟩ := bind_eq_ok.mp hnext
    obtain rfl := pure_eq_ok.mp hset
    have hgroup := ih hrest
    rw [Dict.get?_set] at hgroup
    rw [group_cons]
    by_cases hk : p.1 = k
    · subst hk
      rw [if_pos rfl] at hgroup ⊢
      rw [added_cons, htotal]
      exact hgroup
    · rw [if_neg (Ne.symm hk)] at hgroup
      rw [if_neg hk]
      exact hgroup

theorem exists_accumulate {l : List (κ × β)} {d : Dict κ α}
    (h : ∀ k, ∃ total, added add zero (d.get? k) (group l k) = .ok total) :
    ∃ d', accumulate add zero l d = .ok d' := by
  induction l generalizing d with
  | nil => exact ⟨d, rfl⟩
  | cons p l ih =>
    obtain ⟨held, hheld⟩ := h p.1
    rw [group_cons, if_pos rfl, added_cons] at hheld
    obtain ⟨total, htotal, -⟩ := bind_eq_ok.mp hheld
    have hone : accumulateOne add zero d p = .ok (d.set p.1 total) := by
      simp [accumulateOne, htotal]
    have hrest : ∀ k, ∃ total', added add zero ((d.set p.1 total).get? k) (group l k) = .ok total' := by
      intro k
      obtain ⟨held, hheld⟩ := h k
      rw [group_cons] at hheld
      rw [Dict.get?_set]
      by_cases hk : p.1 = k
      · subst hk
        rw [if_pos rfl, added_cons, htotal] at hheld
        rw [if_pos rfl]
        exact ⟨held, hheld⟩
      · rw [if_neg hk] at hheld
        rw [if_neg (Ne.symm hk)]
        exact ⟨held, hheld⟩
    obtain ⟨d', hd'⟩ := ih hrest
    refine ⟨d', ?_⟩
    unfold accumulate
    rw [List.foldlM_cons, hone]
    exact hd'

end Accumulate

/-! ## Sums -/

section Sums

variable {M : Type} [AddCommMonoid M]

theorem sum_eq_sum_groups (l : List (κ × M)) {keys : Finset κ} (h : ∀ p ∈ l, p.1 ∈ keys) :
    (l.map Prod.snd).sum = ∑ k ∈ keys, (group l k).sum := by
  induction l with
  | nil => simp
  | cons p l ih =>
    obtain ⟨hp, hl⟩ := List.forall_mem_cons.mp h
    have hsplit : ∀ k, (group (p :: l) k).sum = (if p.1 = k then p.2 else 0) + (group l k).sum := by
      intro k
      rw [group_cons]
      split <;> simp
    simp only [List.map_cons, List.sum_cons, hsplit, Finset.sum_add_distrib, ih hl, Finset.sum_ite_eq]
    rw [if_pos hp]

theorem sum_congr_groups {l l' : List (κ × M)} (h : ∀ k, (group l k).sum = (group l' k).sum) :
    (l.map Prod.snd).sum = (l'.map Prod.snd).sum := by
  have hkeys : ∀ p ∈ l ++ l', p.1 ∈ ((l ++ l').map Prod.fst).toFinset := by
    intro p hp
    exact List.mem_toFinset.mpr (List.mem_map_of_mem hp)
  rw [sum_eq_sum_groups l (fun p hp => hkeys p (List.mem_append_left l' hp)),
    sum_eq_sum_groups l' (fun p hp => hkeys p (List.mem_append_right l hp))]
  exact Finset.sum_congr rfl (fun k _ => h k)

theorem sum_eq_dropLast_add {l : List M} {last : M} (h : l.getLast? = some last) :
    l.sum = l.dropLast.sum + last := by
  conv_lhs => rw [← List.dropLast_append_getLast? last h]
  simp

end Sums

end Grouping
