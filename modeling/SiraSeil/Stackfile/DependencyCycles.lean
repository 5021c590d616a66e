-- SUMMARY: The check of a graph finds a cycle of hard dependencies exactly when there is one.
import SiraSeil.Library.DepthFirstRuns
import SiraSeil.Stackfile.Models

/-!
# Dependency cycles

`_validate_no_hard_dependency_cycle` searches the hard dependencies from every node, depth first.
-/

namespace Stackfile

open Domain Sorting

/-- The directed graph of the hard `requires` and `requires_capability` edges -/
def HardEdge (edges : List StackEdge) (a b : String) : Prop :=
  ∃ e ∈ edges, e.hard = true ∧ (e.edgeType = .requires ∨ e.edgeType = .requiresCapability) ∧
    e.fromNodeId = a ∧ e.toNodeId = b

/-- `for node_id in sorted(graph): visit(node_id)`, with no bound of the recursion: the visited nodes
    that it ends with, or nothing where it raises -/
def HardSearch (nodes : List StackNode) (edges : List StackEdge) (result : Option (List String)) :
    Prop :=
  DepthFirst.Visits (hardDependencies edges) [] [] (sortedBy id (nodes.map (·.nodeId))) result

/-- Every edge is between two of the nodes. -/
def Between (nodes : List StackNode) (edges : List StackEdge) : Prop :=
  ∀ e ∈ edges, (∃ n ∈ nodes, n.nodeId = e.fromNodeId) ∧ ∃ n ∈ nodes, n.nodeId = e.toNodeId

instance decidableBetween (nodes : List StackNode) (edges : List StackEdge) :
    Decidable (Between nodes edges) :=
  inferInstanceAs (Decidable (∀ e ∈ edges,
    (∃ n ∈ nodes, n.nodeId = e.fromNodeId) ∧ ∃ n ∈ nodes, n.nodeId = e.toNodeId))

theorem leads_hardDependencies {edges : List StackEdge} {a b : String} :
    DepthFirst.Leads (hardDependencies edges) a b ↔ HardEdge edges a b := by
  unfold DepthFirst.Leads HardEdge
  simp [mem_hardDependencies, EdgeType.hardType, and_assoc]

theorem exists_cycle_iff {nodes : List StackNode} {edges : List StackEdge}
    (hbetween : Between nodes edges) :
    (∃ a ∈ sortedBy id (nodes.map (·.nodeId)),
        Relation.TransGen (DepthFirst.Leads (hardDependencies edges)) a a) ↔
      ∃ a, Relation.TransGen (HardEdge edges) a a := by
  have hrelations : DepthFirst.Leads (hardDependencies edges) = HardEdge edges := by
    funext a b
    exact propext leads_hardDependencies
  rw [hrelations]
  constructor
  · rintro ⟨a, -, hcycle⟩
    exact ⟨a, hcycle⟩
  · rintro ⟨a, hcycle⟩
    obtain ⟨b, ⟨e, he, -, -, hfrom, -⟩, -⟩ := Relation.TransGen.head'_iff.mp hcycle
    obtain ⟨n, hn, hid⟩ := (hbetween e he).1
    refine ⟨a, ?_, hcycle⟩
    rw [mem_sortedBy]
    exact List.mem_map.mpr ⟨n, hn, hid.trans hfrom⟩

/-- The search ends on every graph, with one result. It raises exactly if the hard dependencies form
    a cycle. -/
theorem hardDependencyCycle_detected {nodes : List StackNode} {edges : List StackEdge}
    (hbetween : Between nodes edges) :
    (∃ result, HardSearch nodes edges result ∧ (∀ other, HardSearch nodes edges other → other = result) ∧
      (result = none ↔ ∃ a, Relation.TransGen (HardEdge edges) a a)) ∧
      (validateNoHardDependencyCycle nodes edges =
          .error (.domainValidation "hard directed dependency cycle detected") ↔
        ∃ a, Relation.TransGen (HardEdge edges) a a) ∧
      (validateNoHardDependencyCycle nodes edges = .ok () ↔
        ¬ ∃ a, Relation.TransGen (HardEdge edges) a a) := by
  have hclosed : ∀ a ∈ sortedBy id (nodes.map (·.nodeId)), ∀ b ∈ hardDependencies edges a,
      b ∈ sortedBy id (nodes.map (·.nodeId)) := by
    intro a _ b hb
    obtain ⟨e, he, -, -, rfl⟩ := mem_hardDependencies.mp hb
    obtain ⟨n, hn, hid⟩ := (hbetween e he).2
    rw [mem_sortedBy]
    exact List.mem_map.mpr ⟨n, hn, hid⟩
  obtain ⟨hruns, hcycle⟩ := DepthFirst.visits_visitAll hclosed
  rw [exists_cycle_iff hbetween] at hcycle
  refine ⟨⟨_, hruns, fun other hother => hother.functional hruns, hcycle⟩, ?_⟩
  unfold validateNoHardDependencyCycle
  cases hsearch : DepthFirst.visitAll (hardDependencies edges)
      (sortedBy id (nodes.map (·.nodeId))) with
  | none => simp [hcycle.mp hsearch]
  | some visited =>
    have hacyclic : ¬ ∃ a, Relation.TransGen (HardEdge edges) a a := by
      rw [← hcycle, hsearch]
      simp
    simp [hacyclic]

/-- `node_a` and `node_b` require each other. -/
theorem hardDependencyCycle_detected_sample :
    let nodes : List StackNode := [⟨"node_a", "a", .capability, [], none, by decide, by decide⟩,
      ⟨"node_b", "b", .capability, [], none, by decide, by decide⟩]
    let edges : List StackEdge := [⟨"edge_a", "node_a", "node_b", .requires, .low, true, none, "confirmed",
        by decide, by decide, by decide⟩,
      ⟨"edge_b", "node_b", "node_a", .requiresCapability, .low, true, none, "confirmed", by decide,
        by decide, by decide⟩]
    Between nodes edges ∧ (∃ a, Relation.TransGen (HardEdge edges) a a) ∧
      validateNoHardDependencyCycle nodes edges =
        .error (.domainValidation "hard directed dependency cycle detected") := by
  intro nodes edges
  have hbetween : Between nodes edges := by decide
  have hraises : validateNoHardDependencyCycle nodes edges =
      .error (.domainValidation "hard directed dependency cycle detected") := by decide +kernel
  exact ⟨hbetween, (hardDependencyCycle_detected hbetween).2.1.mp hraises, hraises⟩

end Stackfile
