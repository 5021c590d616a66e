-- SUMMARY: The graph of a product stack: nodes and edges that carry their own checks, the check of the whole graph, and snapshots of it under a content hash.
import SiraSeil.Library.DepthFirst
import SiraSeil.Library.Raising
import SiraSeil.Library.Table
import SiraSeil.Domain.Enums
import SiraSeil.Domain.ExchangeContracts

/-!
# Stackfile graphs

`stackfile/models.py`. A node, an edge and a snapshot are checked when they are built. A snapshot is
sorted by the ids of its nodes and edges, and it carries the hash of its own content.
-/

namespace Stackfile

open Domain Sorting Raising

/-! ## Nodes and edges -/

inductive NodeType
  | organization | businessGoal | jtbd | workflow | capability | team | role | personRef | product
  | productVersion | productInstance | implementationProject | offer | contract | entitlement
  | integration | dataAsset | policy | budget | vendor | decision | outcome | risk
  deriving DecidableEq, Repr

def NodeType.value : NodeType → String
  | organization => "organization"
  | businessGoal => "business_goal"
  | jtbd => "jtbd"
  | workflow => "workflow"
  | capability => "capability"
  | team => "team"
  | role => "role"
  | personRef => "person_ref"
  | product => "product"
  | productVersion => "product_version"
  | productInstance => "product_instance"
  | implementationProject => "implementation_project"
  | offer => "offer"
  | contract => "contract"
  | entitlement => "entitlement"
  | integration => "integration"
  | dataAsset => "data_asset"
  | policy => "policy"
  | budget => "budget"
  | vendor => "vendor"
  | decision => "decision"
  | outcome => "outcome"
  | risk => "risk"

inductive EdgeType
  | fulfills | fulfilledBy | provides | requiresCapability | deployedFor | requires | integratesWith
  | sendsDataTo | replaces | overlapsWith | blocks | constrainedBy | ownedBy | usedBy | paidBy
  | provisionedBy | governedBy | measuredBy | renewedBy
  deriving DecidableEq, Repr

def EdgeType.value : EdgeType → String
  | fulfills => "fulfills"
  | fulfilledBy => "fulfilled_by"
  | provides => "provides"
  | requiresCapability => "requires_capability"
  | deployedFor => "deployed_for"
  | requires => "requires"
  | integratesWith => "integrates_with"
  | sendsDataTo => "sends_data_to"
  | replaces => "replaces"
  | overlapsWith => "overlaps_with"
  | blocks => "blocks"
  | constrainedBy => "constrained_by"
  | ownedBy => "owned_by"
  | usedBy => "used_by"
  | paidBy => "paid_by"
  | provisionedBy => "provisioned_by"
  | governedBy => "governed_by"
  | measuredBy => "measured_by"
  | renewedBy => "renewed_by"

/-- A node; product instances have a lifecycle state, and no other nodes do. -/
structure StackNode where
  nodeId : String
  nodeAlias : String
  nodeType : NodeType
  attributes : List (String × Value) := []
  productInstanceState : Option ProductInstanceState := none
  identified : isId nodeId = true ∧ isId nodeAlias = true := by decide
  staged : nodeType = .productInstance ↔ productInstanceState.isSome := by decide

def StackNode.toValue (n : StackNode) : Value :=
  .obj [("node_id", .str n.nodeId), ("alias", .str n.nodeAlias), ("node_type", .str n.nodeType.value),
    ("attributes", .obj n.attributes),
    ("product_instance_state", .opt (fun s => .str s.value) n.productInstanceState)]

/-- `replace(node, product_instance_state=state)` of a product instance -/
def StackNode.inState (n : StackNode) (h : n.nodeType = .productInstance)
    (state : ProductInstanceState) : StackNode :=
  { n with
    productInstanceState := some state
    staged := ⟨fun _ => rfl, fun _ => h⟩ }

/-- What an edge is known by -/
def confidences : List String := ["confirmed", "measured", "observed", "inferred", "unknown"]

/-- An edge between two nodes -/
structure StackEdge where
  edgeId : String
  fromNodeId : String
  toNodeId : String
  edgeType : EdgeType
  criticality : StackRisk := .low
  hard : Bool := false
  evidenceRef : Option String := none
  confidence : String := "confirmed"
  identified : isId edgeId = true ∧ isId fromNodeId = true ∧ isId toNodeId = true := by decide
  proper : fromNodeId ≠ toNodeId := by decide
  known : confidence ∈ confidences := by decide

def StackEdge.toValue (e : StackEdge) : Value :=
  .obj [("edge_id", .str e.edgeId), ("from_node_id", .str e.fromNodeId),
    ("to_node_id", .str e.toNodeId), ("edge_type", .str e.edgeType.value),
    ("criticality", .str e.criticality.value), ("hard", .bool e.hard),
    ("evidence_ref", .opt .str e.evidenceRef), ("confidence", .str e.confidence)]

/-! ## Graphs -/

/-- The types of the dependencies that may not form a cycle -/
def EdgeType.hardType (t : EdgeType) : Bool :=
  t = .requires ∨ t = .requiresCapability

/-- `graph`: what a node depends on by hard edges -/
def hardDependencies (edges : List StackEdge) (nodeId : String) : List String :=
  (edges.filter (fun e => e.hard && e.edgeType.hardType && e.fromNodeId = nodeId)).map (·.toNodeId)

/-- `_validate_no_hard_dependency_cycle` -/
def validateNoHardDependencyCycle (nodes : List StackNode) (edges : List StackEdge) : Py Unit :=
  match DepthFirst.visitAll (hardDependencies edges) (sortedBy id (nodes.map (·.nodeId))) with
  | some _ => .ok ()
  | none => .error (.domainValidation "hard directed dependency cycle detected")

/-- The id of the node by which an edge says that a job is fulfilled -/
def StackEdge.fulfiller (e : StackEdge) : Option String :=
  match e.edgeType with
  | .fulfills => some e.fromNodeId
  | .fulfilledBy => some e.toNodeId
  | _ => none

/-- `source` or `target` of an edge that fulfills a job -/
def StackEdge.fulfilling (nodes : List StackNode) (e : StackEdge) : Option StackNode :=
  e.fulfiller.bind (fun nodeId => nodes.find? (·.nodeId = nodeId))

/-- The checks of one edge -/
def validateEdge (nodes : List StackNode) (e : StackEdge) : Py Unit :=
  if ¬ (nodes.any (·.nodeId = e.fromNodeId) ∧ nodes.any (·.nodeId = e.toNodeId)) then
    .error (.domainValidation "Stackfile edges must reference nodes in the same snapshot")
  else if (e.fulfilling nodes).any (fun n =>
      n.nodeType = .productInstance ∧ n.productInstanceState ≠ some .active) then
    .error (.domainValidation "only active product instances can fulfill a JTBD")
  else .ok ()

/-- `_validate_graph` -/
def validateGraph (nodes : List StackNode) (edges : List StackEdge) : Py Unit := do
  if ¬ (nodes.map (·.nodeId)).Nodup then
    throw (.domainValidation "Stackfile node IDs must be unique")
  if ¬ (nodes.map (·.nodeAlias)).Nodup then
    throw (.domainValidation "Stackfile aliases must be unique per snapshot")
  if ¬ (edges.map (·.edgeId)).Nodup then
    throw (.domainValidation "Stackfile edge IDs must be unique")
  forM edges (validateEdge nodes)
  validateNoHardDependencyCycle nodes edges

/-- A graph with distinct ids and aliases, whose edges stay in it, whose jobs are fulfilled by active
    instances only, and whose hard dependencies form no cycle -/
structure GraphValid (nodes : List StackNode) (edges : List StackEdge) : Prop where
  nodeIds : Table.Keyed StackNode.nodeId nodes
  aliases : Table.Keyed StackNode.nodeAlias nodes
  edgeIds : Table.Keyed StackEdge.edgeId edges
  endpoints : ∀ e ∈ edges, (∃ n ∈ nodes, n.nodeId = e.fromNodeId) ∧ ∃ n ∈ nodes, n.nodeId = e.toNodeId
  fulfilled : ∀ e ∈ edges, ∀ n ∈ nodes, e.fulfiller = some n.nodeId →
    n.nodeType = .productInstance → n.productInstanceState = some .active
  acyclic : ∀ n ∈ nodes,
    ¬ Relation.TransGen (DepthFirst.Leads (hardDependencies edges)) n.nodeId n.nodeId

variable {nodes : List StackNode} {edges : List StackEdge}

theorem validateEdge_eq_ok (hkeyed : Table.Keyed StackNode.nodeId nodes)
    {e : StackEdge} : validateEdge nodes e = .ok () ↔
      ((∃ n ∈ nodes, n.nodeId = e.fromNodeId) ∧ ∃ n ∈ nodes, n.nodeId = e.toNodeId) ∧
        ∀ n ∈ nodes, e.fulfiller = some n.nodeId → n.nodeType = .productInstance →
          n.productInstanceState = some .active := by
  have hfulfilling : ∀ n, e.fulfilling nodes = some n ↔ n ∈ nodes ∧ e.fulfiller = some n.nodeId := by
    intro n
    unfold StackEdge.fulfilling
    rw [Option.bind_eq_some_iff]
    constructor
    · rintro ⟨nodeId, hid, hfound⟩
      have hmatch := List.find?_some hfound
      exact ⟨List.mem_of_find?_eq_some hfound, hid.trans (congrArg some (of_decide_eq_true hmatch).symm)⟩
    · rintro ⟨hn, hid⟩
      exact ⟨n.nodeId, hid, hkeyed.find?_eq hn (decide_eq_true rfl) (fun _ _ h => of_decide_eq_true h)⟩
  have hidle : (e.fulfilling nodes).any (fun n => n.nodeType = .productInstance ∧
      n.productInstanceState ≠ some .active) = true ↔
        ∃ n, e.fulfilling nodes = some n ∧ n.nodeType = .productInstance ∧
          n.productInstanceState ≠ some .active := by
    cases e.fulfilling nodes <;> simp
  unfold validateEdge
  simp only [List.any_eq_true, decide_eq_true_eq]
  split
  · next hmissing => exact ⟨nofun, fun h => absurd h.1 hmissing⟩
  · next hpresent =>
    rw [not_not] at hpresent
    split
    · next hany =>
      obtain ⟨n, hn, hinstance, hstate⟩ := hidle.mp hany
      obtain ⟨hmem, hid⟩ := (hfulfilling n).mp hn
      exact ⟨nofun, fun h => absurd (h.2 n hmem hid hinstance) hstate⟩
    · next hnone =>
      refine ⟨fun _ => ⟨hpresent, fun n hn hid hinstance => ?_⟩, fun _ => rfl⟩
      by_contra hstate
      exact hnone (hidle.mpr ⟨n, (hfulfilling n).mpr ⟨hn, hid⟩, hinstance, hstate⟩)

theorem mem_hardDependencies {a b : String} :
    b ∈ hardDependencies edges a ↔ ∃ e ∈ edges, (e.hard && e.edgeType.hardType) = true ∧
      e.fromNodeId = a ∧ e.toNodeId = b := by
  unfold hardDependencies
  simp only [List.mem_map, List.mem_filter, Bool.and_eq_true, decide_eq_true_eq, and_assoc]

theorem validateGraph_eq_ok : validateGraph nodes edges = .ok () ↔ GraphValid nodes edges := by
  have hcycle : (∀ e ∈ edges, ∃ n ∈ nodes, n.nodeId = e.toNodeId) →
      (validateNoHardDependencyCycle nodes edges = .ok () ↔ ∀ n ∈ nodes,
        ¬ Relation.TransGen (DepthFirst.Leads (hardDependencies edges)) n.nodeId n.nodeId) := by
    intro hto
    have hclosed : ∀ a ∈ sortedBy id (nodes.map (·.nodeId)), ∀ b ∈ hardDependencies edges a,
        b ∈ sortedBy id (nodes.map (·.nodeId)) := by
      intro a _ b hb
      obtain ⟨e, he, -, -, rfl⟩ := mem_hardDependencies.mp hb
      obtain ⟨n, hn, hid⟩ := hto e he
      rw [mem_sortedBy]
      exact List.mem_map.mpr ⟨n, hn, hid⟩
    have hsearch := DepthFirst.visitAll_isSome hclosed
    simp only [mem_sortedBy, List.forall_mem_map] at hsearch
    rw [← hsearch]
    unfold validateNoHardDependencyCycle
    split
    · next visited hvisited => simp [hvisited]
    · next hnone => simp [hnone]
  unfold validateGraph
  simp only [unless_throw_eq_ok, not_not, check_bind_eq_ok, forM_eq_ok]
  constructor
  · rintro ⟨hnodeIds, haliases, hedgeIds, hedges, hacyclic⟩
    have hedge := fun e he => (validateEdge_eq_ok hnodeIds).mp (hedges e he)
    exact ⟨hnodeIds, haliases, hedgeIds, fun e he => (hedge e he).1, fun e he => (hedge e he).2,
      (hcycle (fun e he => (hedge e he).1.2)).mp hacyclic⟩
  · rintro ⟨hnodeIds, haliases, hedgeIds, hendpoints, hfulfilled, hacyclic⟩
    exact ⟨hnodeIds, haliases, hedgeIds,
      fun e he => (validateEdge_eq_ok hnodeIds).mpr ⟨hendpoints e he, hfulfilled e he⟩,
      (hcycle (fun e he => (hendpoints e he).2)).mpr hacyclic⟩

/-! ## Snapshots -/

/-- `to_hash_payload` -/
def snapshotValue (schemaVersion organizationId : String) (version : Int) (nodes : List StackNode)
    (edges : List StackEdge) : Value :=
  .obj [("schema_version", .str schemaVersion), ("organization_id", .str organizationId),
    ("version", .int version), ("nodes", .seq (nodes.map StackNode.toValue)),
    ("edges", .seq (edges.map StackEdge.toValue))]

/-- The checks of a snapshot, and its hash -/
def snapshotHash (rt : Runtime) (schemaVersion organizationId : String) (version : Int)
    (nodes : List StackNode) (edges : List StackEdge) : Py String := do
  if schemaVersion = "" then
    throw (.domainValidation "Stackfile schema_version is required")
  requireId organizationId "organization_id"
  if version < 1 then
    throw (.domainValidation "Stackfile snapshot version must be positive")
  validateGraph nodes edges
  contentHash rt (snapshotValue schemaVersion organizationId version nodes edges)

/-- A snapshot of the stack of an organization -/
structure StackSnapshot (rt : Runtime) where
  schemaVersion : String
  organizationId : String
  version : Int
  nodes : List StackNode
  edges : List StackEdge
  contentHash : String
  sorted : sortedBy StackNode.nodeId nodes = nodes ∧ sortedBy StackEdge.edgeId edges = edges
  checked : snapshotHash rt schemaVersion organizationId version nodes edges = .ok contentHash

/-- The constructor, which sorts the graph. A given hash must be the one of the content. -/
def StackSnapshot.build (rt : Runtime) (schemaVersion organizationId : String) (version : Int)
    (nodes : List StackNode) (edges : List StackEdge) (given : String := "") :
    Py (StackSnapshot rt) :=
  match h : snapshotHash rt schemaVersion organizationId version (sortedBy StackNode.nodeId nodes)
      (sortedBy StackEdge.edgeId edges) with
  | .error e => .error e
  | .ok computed =>
    if given ≠ "" ∧ ¬ isHash given then
      .error (.domainValidation "content_hash must be a sha256 content hash")
    else if given ≠ "" ∧ computed ≠ given then
      .error (.domainValidation "Stackfile content_hash does not match snapshot")
    else .ok {
      schemaVersion := schemaVersion
      organizationId := organizationId
      version := version
      nodes := sortedBy StackNode.nodeId nodes
      edges := sortedBy StackEdge.edgeId edges
      contentHash := computed
      sorted := ⟨sortedBy_of_pairwise (sortedBy_pairwise _ _), sortedBy_of_pairwise (sortedBy_pairwise _ _)⟩
      checked := h }

variable {rt : Runtime}

theorem StackSnapshot.graphValid (s : StackSnapshot rt) : GraphValid s.nodes s.edges := by
  have h := s.checked
  unfold snapshotHash at h
  simp only [unless_throw_eq_ok, check_bind_eq_ok] at h
  obtain ⟨-, -, -, hgraph, -⟩ := h
  exact validateGraph_eq_ok.mp hgraph

theorem StackSnapshot.build_eq_ok {schemaVersion organizationId given : String} {version : Int}
    {s : StackSnapshot rt}
    (h : StackSnapshot.build rt schemaVersion organizationId version nodes edges given = .ok s) :
    s.schemaVersion = schemaVersion ∧ s.organizationId = organizationId ∧ s.version = version ∧
      s.nodes = sortedBy StackNode.nodeId nodes ∧ s.edges = sortedBy StackEdge.edgeId edges := by
  unfold StackSnapshot.build at h
  split at h
  · cases h
  · split at h
    · cases h
    · split at h
      · cases h
      · cases h
        exact ⟨rfl, rfl, rfl, rfl, rfl⟩

end Stackfile
