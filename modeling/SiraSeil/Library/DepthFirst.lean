-- SUMMARY: Depth-first search for a cycle, and that it finds one exactly when there is one.
import Mathlib.Data.List.Nodup
import Mathlib.Data.List.Perm.Subperm
import Mathlib.Logic.Relation

/-!
# Depth-first search

A search visits a node after the nodes that it leads to. It stops without a result when it comes
back to a node whose visit has not ended.
-/

namespace DepthFirst

variable {α : Type} (next : α → List α)

/-- A step of the graph -/
def Leads (a b : α) : Prop :=
  b ∈ next a

theorem foldlM_eq_none {β : Type} {f : β → α → Option β} {l : List α} {b : β}
    (h : l.foldlM f b = none) : ∃ a ∈ l, ∃ c, f c a = none := by
  induction l generalizing b with
  | nil => cases h
  | cons a l ih =>
    rw [List.foldlM_cons] at h
    cases hstep : f b a with
    | none => exact ⟨a, List.mem_cons_self, b, hstep⟩
    | some c =>
      rw [hstep] at h
      obtain ⟨a', ha', hfails⟩ := ih h
      exact ⟨a', List.mem_cons_of_mem a ha', hfails⟩

/-! ## Settled nodes -/

/-- Every node comes once and after the nodes that it leads to. -/
def Settled : List α → Prop
  | [] => True
  | a :: later => a ∉ later ∧ (∀ b ∈ next a, b ∈ later) ∧ Settled later

variable {next}

theorem Settled.mem_of_leads {l : List α} (h : Settled next l) {a b : α} (ha : a ∈ l)
    (hab : Leads next a b) : b ∈ l := by
  induction l with
  | nil => cases ha
  | cons c l ih =>
    obtain ⟨-, hnext, hrest⟩ := h
    rcases List.mem_cons.mp ha with rfl | ha
    · exact List.mem_cons_of_mem _ (hnext b hab)
    · exact List.mem_cons_of_mem _ (ih hrest ha)

theorem Settled.mem_of_reaches {l : List α} (h : Settled next l) {a b : α} (ha : a ∈ l)
    (hab : Relation.ReflTransGen (Leads next) a b) : b ∈ l := by
  induction hab with
  | refl => exact ha
  | tail _ hbc ih => exact h.mem_of_leads ih hbc

theorem Settled.acyclic {l : List α} (h : Settled next l) {a : α} (ha : a ∈ l) :
    ¬ Relation.TransGen (Leads next) a a := by
  induction l with
  | nil => cases ha
  | cons c l ih =>
    obtain ⟨hfresh, hnext, hrest⟩ := h
    rcases List.mem_cons.mp ha with rfl | ha
    · intro hcycle
      obtain ⟨b, hab, hback⟩ := Relation.TransGen.head'_iff.mp hcycle
      exact hfresh (hrest.mem_of_reaches (hnext b hab) hback)
    · exact ih hrest ha

/-- What a visit of nodes keeps of the visited ones, while others are being visited -/
structure Extends (next : α → List α) (visiting visited visited' : List α) : Prop where
  settled : Settled next visited'
  mono : ∀ x ∈ visited, x ∈ visited'
  apart : ∀ x ∈ visiting, x ∉ visited'

theorem extends_foldlM {visit : List α → α → Option (List α)} {visiting : List α}
    (hvisit : ∀ a visited visited', visit visited a = some visited' → Settled next visited →
      (∀ x ∈ visiting, x ∉ visited) → Extends next visiting visited visited' ∧ a ∈ visited')
    {l visited visited' : List α} (h : l.foldlM visit visited = some visited')
    (hsettled : Settled next visited) (hapart : ∀ x ∈ visiting, x ∉ visited) :
    Extends next visiting visited visited' ∧ ∀ a ∈ l, a ∈ visited' := by
  induction l generalizing visited with
  | nil =>
    cases h
    exact ⟨⟨hsettled, fun _ hx => hx, hapart⟩, fun _ ha => absurd ha List.not_mem_nil⟩
  | cons a l ih =>
    rw [List.foldlM_cons] at h
    obtain ⟨between, hfirst, hrest⟩ := Option.bind_eq_some_iff.mp h
    obtain ⟨hextends, ha⟩ := hvisit a visited between hfirst hsettled hapart
    obtain ⟨hlater, hmem⟩ := ih hrest hextends.settled hextends.apart
    refine ⟨⟨hlater.settled, fun x hx => hlater.mono x (hextends.mono x hx), hlater.apart⟩, ?_⟩
    intro b hb
    rcases List.mem_cons.mp hb with rfl | hb
    · exact hlater.mono _ ha
    · exact hmem b hb

/-! ## The search -/

section Search

variable [DecidableEq α]

variable (next) in
/-- The visited nodes after a visit of a node. The first argument bounds the depth of the search. -/
def visit : Nat → List α → List α → α → Option (List α)
  | 0, _, _, _ => none
  | depth + 1, visiting, visited, a =>
    if a ∈ visiting then none
    else if a ∈ visited then some visited
    else do
      let visited ← (next a).foldlM (visit depth (a :: visiting)) visited
      return a :: visited

variable (next) in
/-- The visited nodes after the visits of all nodes, none of which is deeper than there are nodes -/
def visitAll (nodes : List α) : Option (List α) :=
  nodes.foldlM (visit next (nodes.length + 1) []) []

theorem extends_visit {depth : Nat} {visiting visited visited' : List α} {a : α}
    (h : visit next depth visiting visited a = some visited') (hsettled : Settled next visited)
    (hapart : ∀ x ∈ visiting, x ∉ visited) :
    Extends next visiting visited visited' ∧ a ∈ visited' := by
  induction depth generalizing visiting visited visited' a with
  | zero => cases h
  | succ depth ih =>
    unfold visit at h
    split at h
    · cases h
    · next hopen =>
      split at h
      · next hknown =>
        cases h
        exact ⟨⟨hsettled, fun _ hx => hx, hapart⟩, hknown⟩
      · next hfresh =>
        obtain ⟨between, hchildren, hresult⟩ := Option.bind_eq_some_iff.mp h
        cases hresult
        have haparts : ∀ x ∈ a :: visiting, x ∉ visited := by
          intro x hx
          rcases List.mem_cons.mp hx with rfl | hx
          · exact hfresh
          · exact hapart x hx
        obtain ⟨hextends, hmem⟩ := extends_foldlM (fun _ _ _ => ih) hchildren hsettled haparts
        refine ⟨⟨⟨hextends.apart a List.mem_cons_self, hmem, hextends.settled⟩, ?_, ?_⟩,
          List.mem_cons_self⟩
        · exact fun x hx => List.mem_cons_of_mem a (hextends.mono x hx)
        · intro x hx hin
          rcases List.mem_cons.mp hin with rfl | hin
          · exact hopen hx
          · exact hextends.apart x (List.mem_cons_of_mem a hx) hin

/-- A visit that stops has come to a node that reaches itself. It never stops for its depth: the
    nodes that are being visited are distinct, and so no more than there are nodes. -/
theorem exists_cycle_of_visit {nodes : List α} (hclosed : ∀ a ∈ nodes, ∀ b ∈ next a, b ∈ nodes)
    {depth : Nat} {visiting visited : List α} {a : α}
    (h : visit next depth visiting visited a = none) (hdepth : nodes.length < depth + visiting.length)
    (hnodup : visiting.Nodup) (hnodes : ∀ x ∈ visiting, x ∈ nodes) (ha : a ∈ nodes)
    (hreach : ∀ x ∈ visiting, Relation.TransGen (Leads next) x a) :
    ∃ c ∈ nodes, Relation.TransGen (Leads next) c c := by
  induction depth generalizing visiting visited a with
  | zero =>
    have hle : visiting.length ≤ nodes.length := (List.subperm_of_subset hnodup hnodes).length_le
    omega
  | succ depth ih =>
    unfold visit at h
    split at h
    · next hopen => exact ⟨a, ha, hreach a hopen⟩
    · next hopen =>
      split at h
      · cases h
      · next hfresh =>
        have hchildren : (next a).foldlM (visit next depth (a :: visiting)) visited = none := by
          cases hfold : (next a).foldlM (visit next depth (a :: visiting)) visited with
          | none => rfl
          | some between =>
            rw [hfold] at h
            cases h
        obtain ⟨b, hb, between, hstop⟩ := foldlM_eq_none hchildren
        refine ih hstop ?_ (List.nodup_cons.mpr ⟨hopen, hnodup⟩) ?_ (hclosed a ha b hb) ?_
        · rw [List.length_cons]
          omega
        · intro x hx
          rcases List.mem_cons.mp hx with rfl | hx
          · exact ha
          · exact hnodes x hx
        · intro x hx
          rcases List.mem_cons.mp hx with rfl | hx
          · exact .single hb
          · exact (hreach x hx).tail hb

theorem visitAll_isSome {nodes : List α} (hclosed : ∀ a ∈ nodes, ∀ b ∈ next a, b ∈ nodes) :
    (visitAll next nodes).isSome ↔ ∀ a ∈ nodes, ¬ Relation.TransGen (Leads next) a a := by
  constructor
  · intro h a ha
    obtain ⟨visited, hvisited⟩ := Option.isSome_iff_exists.mp h
    have hall : Extends next [] [] visited ∧ ∀ a ∈ nodes, a ∈ visited :=
      extends_foldlM (fun _ _ _ => extends_visit) hvisited trivial
        (fun _ hx => absurd hx List.not_mem_nil)
    obtain ⟨hextends, hmem⟩ := hall
    exact hextends.settled.acyclic (hmem a ha)
  · intro h
    by_contra hnone
    obtain ⟨a, ha, visited, hstop⟩ :=
      foldlM_eq_none (Option.not_isSome_iff_eq_none.mp hnone)
    obtain ⟨c, hc, hcycle⟩ := exists_cycle_of_visit hclosed hstop (by simp) List.nodup_nil
      (fun _ hx => absurd hx List.not_mem_nil) ha (fun _ hx => absurd hx List.not_mem_nil)
    exact h c hc hcycle

end Search

end DepthFirst
