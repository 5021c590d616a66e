-- SUMMARY: Reading a sorted table of thresholds, and that the reading falls exactly when the values of the table do.
import Mathlib.Order.Lattice
import Mathlib.Order.Monotone.Basic
import Mathlib.Data.List.Pairwise

/-!
# Threshold tables

A table lists thresholds with a value each. Reading it at `x` gives the value of the first
threshold that `x` does not exceed, and a default beyond the last one.
-/

namespace Thresholds

variable {α β : Type*} [LinearOrder α]

/-- The value of the first threshold that `x` does not exceed -/
def read (table : List (α × β)) (beyond : β) (x : α) : β :=
  match table.find? (fun p => decide (x ≤ p.1)) with
  | some p => p.2
  | none => beyond

/-- The thresholds increase; a threshold that is there twice has one value. -/
def Sorted (table : List (α × β)) : Prop :=
  table.Pairwise (fun p q => p.1 < q.1 ∨ p = q)

variable {table : List (α × β)} {beyond : β} {x : α} {p : α × β}

theorem read_cons_of_le (h : x ≤ p.1) : read (p :: table) beyond x = p.2 := by
  simp [read, h]

theorem read_cons_of_lt (h : p.1 < x) : read (p :: table) beyond x = read table beyond x := by
  simp [read, not_le.mpr h]

theorem read_of_mem (hsorted : Sorted table) (hp : p ∈ table) : read table beyond p.1 = p.2 := by
  induction table with
  | nil => cases hp
  | cons q table ih =>
    obtain ⟨hq, htable⟩ := List.pairwise_cons.mp hsorted
    rcases List.mem_cons.mp hp with rfl | hp
    · exact read_cons_of_le le_rfl
    · rcases hq p hp with hlt | rfl
      · rw [read_cons_of_lt hlt]
        exact ih htable hp
      · exact read_cons_of_le le_rfl

variable [Preorder β]

theorem read_le {bound : β} (hvalues : ∀ q ∈ table, q.2 ≤ bound) (hbeyond : beyond ≤ bound) :
    read table beyond x ≤ bound := by
  unfold read
  split
  · next q hfound => exact hvalues q (List.mem_of_find?_eq_some hfound)
  · exact hbeyond

theorem antitone_read (hfalls : table.Pairwise (fun p q => q.2 ≤ p.2))
    (hbeyond : ∀ p ∈ table, beyond ≤ p.2) : Antitone (read table beyond) := by
  intro x y hxy
  induction table with
  | nil => exact le_rfl
  | cons p table ih =>
    obtain ⟨hp, hfalls⟩ := List.pairwise_cons.mp hfalls
    have hp_beyond := hbeyond p List.mem_cons_self
    by_cases hx : x ≤ p.1
    · rw [read_cons_of_le hx]
      by_cases hy : y ≤ p.1
      · rw [read_cons_of_le hy]
      · rw [read_cons_of_lt (not_le.mp hy)]
        exact read_le hp hp_beyond
    · have hy : p.1 < y := (not_le.mp hx).trans_le hxy
      rw [read_cons_of_lt (not_le.mp hx), read_cons_of_lt hy]
      exact ih hfalls (fun q hq => hbeyond q (List.mem_cons_of_mem p hq))

/-- A sorted table whose default is its least value falls, over any inputs that include its
    thresholds, exactly when its values never rise. -/
theorem antitoneOn_read_iff {inputs : Set α} (hsorted : Sorted table)
    (hbeyond : ∀ p ∈ table, beyond ≤ p.2) (hinputs : ∀ p ∈ table, p.1 ∈ inputs) :
    AntitoneOn (read table beyond) inputs ↔ table.Pairwise (fun p q => q.2 ≤ p.2) := by
  constructor
  · intro hfalls
    refine List.Pairwise.imp_of_mem (fun {p q} hp hq hpq => ?_) hsorted
    rcases hpq with hlt | rfl
    · have hread := hfalls (hinputs p hp) (hinputs q hq) hlt.le
      rwa [read_of_mem hsorted hp, read_of_mem hsorted hq] at hread
    · exact le_rfl
  · intro hfalls
    exact (antitone_read hfalls hbeyond).antitoneOn inputs

end Thresholds
