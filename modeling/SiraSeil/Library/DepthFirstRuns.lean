-- SUMMARY: The depth-first search with no bound of its depth, which ends on every finite graph.
import SiraSeil.Library.DepthFirst

/-!
# Depth-first runs

The recursion of the search as a relation: a run that never ends has no derivation. A run of nodes
that lie in a finite graph has one, and the search of bounded depth computes its result.
-/

namespace DepthFirst

variable {α : Type}

/-- What the visits of nodes, one after the other, end with: the visited nodes, or nothing if a
    visit comes back to a node whose visit has not ended -/
inductive Visits (next : α → List α) : List α → List α → List α → Option (List α) → Prop
  | nil {visiting visited : List α} : Visits next visiting visited [] (some visited)
  | reopened {visiting visited l : List α} {a : α} (hopen : a ∈ visiting) :
      Visits next visiting visited (a :: l) none
  | known {visiting visited l : List α} {a : α} {result : Option (List α)} (hclosed : a ∉ visiting)
      (hknown : a ∈ visited) (hrest : Visits next visiting visited l result) :
      Visits next visiting visited (a :: l) result
  | settled {visiting visited between l : List α} {a : α} {result : Option (List α)}
      (hclosed : a ∉ visiting) (hfresh : a ∉ visited)
      (hchildren : Visits next (a :: visiting) visited (next a) (some between))
      (hrest : Visits next visiting (a :: between) l result) :
      Visits next visiting visited (a :: l) result
  | stopped {visiting visited l : List α} {a : α} (hclosed : a ∉ visiting) (hfresh : a ∉ visited)
      (hchildren : Visits next (a :: visiting) visited (next a) none) :
      Visits next visiting visited (a :: l) none

variable {next : α → List α}

theorem Visits.functional {visiting visited l : List α} {result result' : Option (List α)}
    (h : Visits next visiting visited l result) (h' : Visits next visiting visited l result') :
    result = result' := by
  induction h generalizing result' with
  | nil => cases h'; rfl
  | reopened hopen =>
    cases h' with
    | reopened => rfl
    | known hclosed => exact absurd hopen hclosed
    | settled hclosed => exact absurd hopen hclosed
    | stopped => rfl
  | known hclosed hknown _ ih =>
    cases h' with
    | reopened hopen => exact absurd hopen hclosed
    | known _ _ hrest => exact ih hrest
    | settled _ hfresh => exact absurd hknown hfresh
    | stopped _ hfresh => exact absurd hknown hfresh
  | settled hclosed hfresh _ _ ihchildren ihrest =>
    cases h' with
    | reopened hopen => exact absurd hopen hclosed
    | known _ hknown => exact absurd hknown hfresh
    | settled _ _ hchildren hrest =>
      -- both runs of the nodes below leave the same nodes visited
      cases ihchildren hchildren
      exact ihrest hrest
    | stopped _ _ hchildren => cases ihchildren hchildren
  | stopped hclosed hfresh _ ih =>
    cases h' with
    | reopened => rfl
    | known _ hknown => exact absurd hknown hfresh
    | settled _ _ hchildren => cases ih hchildren
    | stopped => rfl

section Search

variable [DecidableEq α]

/-- The search of bounded depth computes the run. Its depth suffices: the nodes that are being
    visited are distinct nodes of the graph. -/
theorem visits_foldlM {nodes : List α} (hclosed : ∀ a ∈ nodes, ∀ b ∈ next a, b ∈ nodes) {depth : Nat}
    {visiting visited l : List α} (hl : ∀ a ∈ l, a ∈ nodes)
    (hdepth : nodes.length < depth + visiting.length) (hnodup : visiting.Nodup)
    (hnodes : ∀ x ∈ visiting, x ∈ nodes) :
    Visits next visiting visited l (l.foldlM (visit next depth visiting) visited) := by
  induction depth generalizing visiting visited l with
  | zero =>
    have hle : visiting.length ≤ nodes.length := (List.subperm_of_subset hnodup hnodes).length_le
    omega
  | succ depth ihdepth =>
    induction l generalizing visited with
    | nil => exact .nil
    | cons a l ihl =>
      have hrest : ∀ between, Visits next visiting between l
          (l.foldlM (visit next (depth + 1) visiting) between) :=
        fun _ => ihl (fun b hb => hl b (List.mem_cons_of_mem a hb))
      rw [List.foldlM_cons]
      by_cases hopen : a ∈ visiting
      · simpa [visit, hopen] using Visits.reopened hopen
      by_cases hknown : a ∈ visited
      · simpa [visit, hopen, hknown] using Visits.known hopen hknown (hrest visited)
      have hchildren : Visits next (a :: visiting) visited (next a)
          ((next a).foldlM (visit next depth (a :: visiting)) visited) := by
        apply ihdepth (hclosed a (hl a List.mem_cons_self))
        · rw [List.length_cons]
          omega
        · exact List.nodup_cons.mpr ⟨hopen, hnodup⟩
        · intro x hx
          rcases List.mem_cons.mp hx with rfl | hx
          · exact hl x List.mem_cons_self
          · exact hnodes x hx
      cases hfold : (next a).foldlM (visit next depth (a :: visiting)) visited with
      | none =>
        rw [hfold] at hchildren
        simpa [visit, hopen, hknown, hfold] using Visits.stopped hopen hknown hchildren
      | some between =>
        rw [hfold] at hchildren
        simpa [visit, hopen, hknown, hfold] using
          Visits.settled hopen hknown hchildren (hrest (a :: between))

/-- The run of all nodes of a finite graph ends, and has no result exactly if a node of the graph
    reaches itself. -/
theorem visits_visitAll {nodes : List α} (hclosed : ∀ a ∈ nodes, ∀ b ∈ next a, b ∈ nodes) :
    Visits next [] [] nodes (visitAll next nodes) ∧
      (visitAll next nodes = none ↔ ∃ a ∈ nodes, Relation.TransGen (Leads next) a a) := by
  constructor
  · apply visits_foldlM hclosed (fun _ ha => ha)
    · simp
    · exact List.nodup_nil
    · simp
  · rw [← Option.not_isSome_iff_eq_none, visitAll_isSome hclosed]
    simp

end Search

end DepthFirst
