-- SUMMARY: Patches of a product stack: their operations, the validation that simulates them, their statuses, and what each operation does to the nodes of a graph.
import SiraSeil.Stackfile.Models

/-!
# Stackfile patches

`stackfile/patches.py`. A patch is bound to the version and the hash of the snapshot that it changes.
Its operations are simulated one after another; an operation that is refused leaves the graph as it
is and adds an issue, and a patch with an issue has no simulated snapshot.
-/

namespace Stackfile

open Domain Sorting

/-! ## Operations -/

structure AddNode where
  operationId : String
  node : StackNode
  identified : isId operationId = true := by decide
  unactivated : ¬ (node.nodeType = .productInstance ∧ node.productInstanceState = some .active) := by
    decide

structure AddEdge where
  operationId : String
  edge : StackEdge
  identified : isId operationId = true := by decide

structure TransitionProductInstance where
  operationId : String
  nodeId : String
  fromState : ProductInstanceState
  toState : ProductInstanceState
  deploymentValidated : Bool := false
  identified : isId operationId = true ∧ isId nodeId = true := by decide

structure RemoveEdge where
  operationId : String
  edgeId : String
  identified : isId operationId = true ∧ isId edgeId = true := by decide

structure RemoveNode where
  operationId : String
  nodeId : String
  identified : isId operationId = true ∧ isId nodeId = true := by decide

inductive PatchOperation
  | addNode (op : AddNode)
  | addEdge (op : AddEdge)
  | transition (op : TransitionProductInstance)
  | removeEdge (op : RemoveEdge)
  | removeNode (op : RemoveNode)

def PatchOperation.operationId : PatchOperation → String
  | addNode op => op.operationId
  | addEdge op => op.operationId
  | transition op => op.operationId
  | removeEdge op => op.operationId
  | removeNode op => op.operationId

def PatchOperation.toValue : PatchOperation → Value
  | addNode op => .obj [("kind", .str "ADD_NODE"), ("operation_id", .str op.operationId),
      ("node", op.node.toValue)]
  | addEdge op => .obj [("kind", .str "ADD_EDGE"), ("operation_id", .str op.operationId),
      ("edge", op.edge.toValue)]
  | transition op => .obj [("kind", .str "TRANSITION_PRODUCT_INSTANCE"),
      ("operation_id", .str op.operationId), ("node_id", .str op.nodeId),
      ("from_state", .str op.fromState.value), ("to_state", .str op.toState.value),
      ("deployment_validated", .bool op.deploymentValidated)]
  | removeEdge op => .obj [("kind", .str "REMOVE_EDGE"), ("operation_id", .str op.operationId),
      ("edge_id", .str op.edgeId)]
  | removeNode op => .obj [("kind", .str "REMOVE_NODE"), ("operation_id", .str op.operationId),
      ("node_id", .str op.nodeId)]

/-! ## Patches -/

/-- The checks of a patch, and its hash. The status is not part of what is hashed. -/
def patchDigest (rt : Runtime) (schemaVersion patchId organizationId : String)
    (baseSnapshotVersion : Int) (baseSnapshotHash : String) (operations : List PatchOperation) :
    Py String := do
  requireId patchId "patch_id"
  requireId organizationId "organization_id"
  if ¬ isHash baseSnapshotHash then
    throw (.domainValidation "base_snapshot_hash must be a sha256 content hash")
  if baseSnapshotVersion < 1 ∨ schemaVersion = "" then
    throw (.domainValidation "patch schema and positive base version are required")
  if operations = [] then
    throw (.domainValidation "a Stackfile patch requires at least one operation")
  if ¬ (operations.map PatchOperation.operationId).Nodup then
    throw (.domainValidation "patch operation IDs must be unique")
  contentHash rt (.obj [("schema_version", .str schemaVersion), ("patch_id", .str patchId),
    ("organization_id", .str organizationId), ("base_snapshot_version", .int baseSnapshotVersion),
    ("base_snapshot_hash", .str baseSnapshotHash),
    ("operations", .seq (operations.map PatchOperation.toValue))])

/-- A patch of one version of a stack -/
structure StackPatch (rt : Runtime) where
  schemaVersion : String
  patchId : String
  organizationId : String
  baseSnapshotVersion : Int
  baseSnapshotHash : String
  operations : List PatchOperation
  status : StackPatchStatus := .draft
  patchHash : String
  checked : patchDigest rt schemaVersion patchId organizationId baseSnapshotVersion baseSnapshotHash
    operations = .ok patchHash

/-- The constructor. A given hash must be the one of the content. -/
def StackPatch.build (rt : Runtime) (schemaVersion patchId organizationId : String)
    (baseSnapshotVersion : Int) (baseSnapshotHash : String) (operations : List PatchOperation)
    (status : StackPatchStatus := .draft) (given : String := "") : Py (StackPatch rt) :=
  match h : patchDigest rt schemaVersion patchId organizationId baseSnapshotVersion baseSnapshotHash
      operations with
  | .error e => .error e
  | .ok computed =>
    if given ≠ "" ∧ ¬ isHash given then
      .error (.domainValidation "patch_hash must be a sha256 content hash")
    else if given ≠ "" ∧ given ≠ computed then
      .error (.domainValidation "patch_hash does not match patch payload")
    else .ok {
      schemaVersion := schemaVersion
      patchId := patchId
      organizationId := organizationId
      baseSnapshotVersion := baseSnapshotVersion
      baseSnapshotHash := baseSnapshotHash
      operations := operations
      status := status
      patchHash := computed
      checked := h }

/-! ## Simulation -/

structure PatchIssue where
  code : String
  message : String
  operationId : Option String := none

structure PatchValidation (rt : Runtime) where
  valid : Bool
  issues : List PatchIssue
  simulatedSnapshot : Option (StackSnapshot rt)

/-- `_INSTANCE_TRANSITIONS` -/
def instanceTransitions : ProductInstanceState → List ProductInstanceState
  | .proposed => [.contracted]
  | .contracted => [.provisioned, .retiring]
  | .provisioned => [.deploying, .retiring]
  | .deploying => [.active, .degraded, .retiring]
  | .active => [.degraded, .retiring]
  | .degraded => [.active, .retiring]
  | .retiring => [.cancelled]
  | .cancelled => []

/-- The values of the dictionaries `nodes` and `edges`, each of which is kept under its own id -/
structure Graph where
  nodes : List StackNode
  edges : List StackEdge

def notProductInstance (op : TransitionProductInstance) : PatchIssue :=
  ⟨"NOT_PRODUCT_INSTANCE", "Lifecycle target is absent or not a product instance",
    some op.operationId⟩

/-- One operation: the changed graph, or the issue for which it is refused -/
def applyOperation (g : Graph) : PatchOperation → Except PatchIssue Graph
  | .addNode op =>
    if g.nodes.any (·.nodeId = op.node.nodeId) then
      .error ⟨"DUPLICATE_NODE", "Node ID already exists", some op.operationId⟩
    else if g.nodes.any (·.nodeAlias = op.node.nodeAlias) then
      .error ⟨"DUPLICATE_ALIAS", "Node alias already exists", some op.operationId⟩
    else .ok { g with nodes := g.nodes ++ [op.node] }
  | .addEdge op =>
    if g.edges.any (·.edgeId = op.edge.edgeId) then
      .error ⟨"DUPLICATE_EDGE", "Edge ID already exists", some op.operationId⟩
    else if ¬ (g.nodes.any (·.nodeId = op.edge.fromNodeId) ∧
        g.nodes.any (·.nodeId = op.edge.toNodeId)) then
      .error ⟨"MISSING_ENDPOINT", "Edge endpoint is absent", some op.operationId⟩
    else .ok { g with edges := g.edges ++ [op.edge] }
  | .transition op =>
    match g.nodes.find? (·.nodeId = op.nodeId) with
    | none => .error (notProductInstance op)
    | some node =>
      if h : node.nodeType = .productInstance then
        if node.productInstanceState ≠ some op.fromState then
          .error ⟨"STALE_INSTANCE_STATE", "Lifecycle from_state does not match",
            some op.operationId⟩
        else if op.toState ∉ instanceTransitions op.fromState then
          .error ⟨"INVALID_INSTANCE_TRANSITION", "Product lifecycle transition is not allowed",
            some op.operationId⟩
        else if op.toState = .active ∧ ¬ op.deploymentValidated then
          .error ⟨"DEPLOYMENT_NOT_VALIDATED", "Activation requires deployment validation",
            some op.operationId⟩
        else .ok { g with
          nodes := Table.update (·.nodeId) node.nodeId (fun _ => node.inState h op.toState) g.nodes }
      else .error (notProductInstance op)
  | .removeEdge op =>
    if ¬ g.edges.any (·.edgeId = op.edgeId) then
      .error ⟨"MISSING_EDGE", "Cannot remove absent edge", some op.operationId⟩
    else .ok { g with edges := g.edges.filter (·.edgeId ≠ op.edgeId) }
  | .removeNode op =>
    match g.nodes.find? (·.nodeId = op.nodeId) with
    | none => .error ⟨"MISSING_NODE", "Cannot remove absent node", some op.operationId⟩
    | some node =>
      if node.nodeType = .productInstance then
        .error ⟨"INSTANCE_HISTORY_REQUIRED",
          "Product instances are retired/cancelled, not deleted", some op.operationId⟩
      else if g.edges.any (fun e => op.nodeId = e.fromNodeId ∨ op.nodeId = e.toNodeId) then
        .error ⟨"DEPENDENCIES_REMAIN", "Remove related edges before removing a node",
          some op.operationId⟩
      else .ok { g with nodes := g.nodes.filter (·.nodeId ≠ op.nodeId) }

/-- The loop over the operations, with the issues so far -/
def simulateOperations (g : Graph) (issues : List PatchIssue) :
    List PatchOperation → Graph × List PatchIssue
  | [] => (g, issues)
  | op :: operations =>
    match applyOperation g op with
    | .ok g' => simulateOperations g' issues operations
    | .error issue => simulateOperations g (issues ++ [issue]) operations

variable {rt : Runtime}

/-- The issues of a patch that is for another snapshot -/
def baseIssues (base : StackSnapshot rt) (patch : StackPatch rt) : List PatchIssue :=
  (if patch.organizationId ≠ base.organizationId then
    [⟨"TENANT_MISMATCH", "Patch organization does not match snapshot", none⟩] else []) ++
  (if patch.baseSnapshotVersion ≠ base.version ∨ patch.baseSnapshotHash ≠ base.contentHash then
    [⟨"STALE_BASE", "Patch base version or hash is stale", none⟩] else [])

/-- `validate_patch` -/
def validatePatch (base : StackSnapshot rt) (patch : StackPatch rt) : Py (PatchValidation rt) :=
  if baseIssues base patch ≠ [] then .ok ⟨false, baseIssues base patch, none⟩
  else
    match simulateOperations ⟨base.nodes, base.edges⟩ [] patch.operations with
    | (g, []) =>
      match StackSnapshot.build rt base.schemaVersion base.organizationId (base.version + 1) g.nodes
          g.edges with
      | .ok simulated => .ok ⟨true, [], some simulated⟩
      | .error (.domainValidation message) => .ok ⟨false, [⟨"GRAPH_INVALID", message, none⟩], none⟩
      | .error e => .error e
    | (_, issue :: issues) => .ok ⟨false, issue :: issues, none⟩

inductive StackError
  | domain (error : PyError)
  | invalidTransition (message : String)

def PatchIssue.detail (issue : PatchIssue) : String :=
  issue.code ++ ": " ++ issue.message

/-- `simulate_patch` -/
def simulatePatch (base : StackSnapshot rt) (patch : StackPatch rt) :
    Except StackError (StackSnapshot rt) := do
  let result ← (validatePatch base patch).mapError .domain
  match result.valid, result.simulatedSnapshot with
  | true, some simulated => return simulated
  | _, _ => throw (.domain (.domainValidation ("invalid Stackfile patch: " ++
      "; ".intercalate (result.issues.map PatchIssue.detail))))

/-- `apply_approved_patch` -/
def applyApprovedPatch (base : StackSnapshot rt) (patch : StackPatch rt) :
    Except StackError (StackSnapshot rt) :=
  if patch.status ≠ .approved then
    .error (.invalidTransition "only an approved Stackfile patch may be applied")
  else simulatePatch base patch

/-! ## Statuses -/

/-- `_PATCH_TRANSITIONS` -/
def patchTransitions : StackPatchStatus → List StackPatchStatus
  | .draft => [.validated, .failed, .conflict]
  | .validated => [.awaitingApproval]
  | .awaitingApproval => [.approved, .conflict]
  | .approved => [.applying, .conflict]
  | .applying => [.applied, .failed]
  | .applied => [.compensatingPatch]
  | .conflict => []
  | .failed => [.compensatingPatch]
  | .compensatingPatch => []

/-- `transition_patch_status`, which builds the patch again and computes its hash anew -/
def transitionPatchStatus (patch : StackPatch rt) (target : StackPatchStatus) :
    Except StackError (StackPatch rt) :=
  if target ∉ patchTransitions patch.status then
    .error (.invalidTransition ("Stack patch cannot transition " ++ patch.status.value ++ " -> " ++
      target.value))
  else (StackPatch.build rt patch.schemaVersion patch.patchId patch.organizationId
    patch.baseSnapshotVersion patch.baseSnapshotHash patch.operations target).mapError .domain

/-! ## What an operation does to the nodes -/

/-- The transitions of one node, in their order -/
def transitionsOf (nodeId : String) (operations : List PatchOperation) :
    List TransitionProductInstance :=
  operations.filterMap (fun
    | .transition op => if op.nodeId = nodeId then some op else none
    | _ => none)

/-- Transitions lead from a state to another one, each along an edge of the lifecycle, and to the
    active state only if the deployment is validated. -/
def Moves : ProductInstanceState → List TransitionProductInstance → ProductInstanceState → Prop
  | s, [], s' => s = s'
  | s, op :: ops, s' => op.fromState = s ∧ op.toState ∈ instanceTransitions s ∧
      (op.toState = .active → op.deploymentValidated = true) ∧ Moves op.toState ops s'

theorem Moves.append {s t u : ProductInstanceState} {ops ops' : List TransitionProductInstance}
    (h : Moves s ops t) (h' : Moves t ops' u) : Moves s (ops ++ ops') u := by
  induction ops generalizing s with
  | nil => exact h ▸ h'
  | cons op ops ih =>
    obtain ⟨hfrom, hto, hvalidated, hrest⟩ := h
    exact ⟨hfrom, hto, hvalidated, ih hrest⟩

theorem Moves.cancelled {ops : List TransitionProductInstance} {s : ProductInstanceState}
    (h : Moves .cancelled ops s) : s = .cancelled := by
  cases ops with
  | nil => exact h.symm
  | cons op ops => exact absurd h.2.1 List.not_mem_nil

/-- The instance of one graph under its id in another one: of the same alias and attributes, and in a
    state that the transitions lead to -/
structure KeepsInstance (nodes' : List StackNode) (ops : List TransitionProductInstance)
    (node : StackNode) (node' : StackNode) : Prop where
  mem : node' ∈ nodes'
  nodeId : node'.nodeId = node.nodeId
  nodeType : node'.nodeType = .productInstance
  nodeAlias : node'.nodeAlias = node.nodeAlias
  attributes : node'.attributes = node.attributes
  moves : ∀ s ∈ node.productInstanceState, ∃ s' ∈ node'.productInstanceState, Moves s ops s'

theorem KeepsInstance.trans {nodes' nodes'' : List StackNode}
    {ops ops' : List TransitionProductInstance} {node node' node'' : StackNode}
    (h : KeepsInstance nodes' ops node node') (h' : KeepsInstance nodes'' ops' node' node'') :
    KeepsInstance nodes'' (ops ++ ops') node node'' where
  mem := h'.mem
  nodeId := h'.nodeId.trans h.nodeId
  nodeType := h'.nodeType
  nodeAlias := h'.nodeAlias.trans h.nodeAlias
  attributes := h'.attributes.trans h.attributes
  moves := by
    intro s hs
    obtain ⟨t, ht, hfirst⟩ := h.moves s hs
    obtain ⟨u, hu, hsecond⟩ := h'.moves t ht
    exact ⟨u, hu, hfirst.append hsecond⟩

theorem KeepsInstance.of_mem {nodes' : List StackNode} {node : StackNode}
    (hinstance : node.nodeType = .productInstance) (hmem : node ∈ nodes') :
    KeepsInstance nodes' [] node node :=
  ⟨hmem, rfl, hinstance, rfl, rfl, fun s hs => ⟨s, hs, rfl⟩⟩

/-- What an applied operation does to a graph, and what it has checked of the nodes -/
inductive Applies (g : Graph) : PatchOperation → Graph → Prop
  | addNode (op : AddNode) (hfresh : ∀ node ∈ g.nodes, node.nodeId ≠ op.node.nodeId) :
      Applies g (.addNode op) { g with nodes := g.nodes ++ [op.node] }
  | addEdge (op : AddEdge) : Applies g (.addEdge op) { g with edges := g.edges ++ [op.edge] }
  | transition (op : TransitionProductInstance) (node : StackNode) (hnode : node ∈ g.nodes)
      (hid : node.nodeId = op.nodeId) (hinstance : node.nodeType = .productInstance)
      (hfrom : node.productInstanceState = some op.fromState)
      (hto : op.toState ∈ instanceTransitions op.fromState)
      (hvalidated : op.toState = .active → op.deploymentValidated = true) :
      Applies g (.transition op) { g with
        nodes := Table.update (·.nodeId) node.nodeId (fun _ => node.inState hinstance op.toState)
          g.nodes }
  | removeEdge (op : RemoveEdge) :
      Applies g (.removeEdge op) { g with edges := g.edges.filter (·.edgeId ≠ op.edgeId) }
  | removeNode (op : RemoveNode) (node : StackNode) (hnode : node ∈ g.nodes)
      (hid : node.nodeId = op.nodeId) (hother : node.nodeType ≠ .productInstance) :
      Applies g (.removeNode op) { g with nodes := g.nodes.filter (·.nodeId ≠ op.nodeId) }

variable {g g' : Graph} {op : PatchOperation}

theorem applies_of_eq_ok (h : applyOperation g op = .ok g') : Applies g op g' := by
  cases op with
  | addNode op =>
    simp only [applyOperation] at h
    split at h
    · cases h
    · next hfresh =>
      split at h
      · cases h
      · cases h
        refine .addNode op (fun node hnode hid => hfresh ?_)
        exact List.any_eq_true.mpr ⟨node, hnode, decide_eq_true hid⟩
  | addEdge op =>
    simp only [applyOperation] at h
    split at h
    · cases h
    · split at h
      · cases h
      · cases h
        exact .addEdge op
  | transition op =>
    simp only [applyOperation] at h
    split at h
    · cases h
    · next node hfound =>
      have hid := List.find?_some hfound
      split at h
      · next hinstance =>
        split at h
        · cases h
        · next hfrom =>
          split at h
          · cases h
          · next hto =>
            split at h
            · cases h
            · next hvalidated =>
              cases h
              refine .transition op node (List.mem_of_find?_eq_some hfound) (of_decide_eq_true hid)
                hinstance (not_not.mp hfrom) (not_not.mp hto) (fun hactive => ?_)
              by_contra hnot
              exact hvalidated ⟨hactive, hnot⟩
      · cases h
  | removeEdge op =>
    simp only [applyOperation] at h
    split at h
    · cases h
    · cases h
      exact .removeEdge op
  | removeNode op =>
    simp only [applyOperation] at h
    split at h
    · cases h
    · next node hfound =>
      have hid := List.find?_some hfound
      split at h
      · cases h
      · next hother =>
        split at h
        · cases h
        · cases h
          exact .removeNode op node (List.mem_of_find?_eq_some hfound) (of_decide_eq_true hid) hother

theorem Applies.keyed (h : Applies g op g') (hkeyed : Table.Keyed StackNode.nodeId g.nodes) :
    Table.Keyed StackNode.nodeId g'.nodes := by
  cases h with
  | addNode op hfresh => exact hkeyed.append hfresh
  | addEdge op => exact hkeyed
  | transition op node hnode hid hinstance => exact hkeyed.replace rfl
  | removeEdge op => exact hkeyed
  | removeNode op node => exact hkeyed.filter _

theorem Applies.keeps (h : Applies g op g') (hkeyed : Table.Keyed StackNode.nodeId g.nodes)
    {node : StackNode} (hnode : node ∈ g.nodes) (hinstance : node.nodeType = .productInstance) :
    ∃ node', KeepsInstance g'.nodes (transitionsOf node.nodeId [op]) node node' := by
  cases h with
  | addNode op => exact ⟨node, .of_mem hinstance (List.mem_append_left _ hnode)⟩
  | addEdge op => exact ⟨node, .of_mem hinstance hnode⟩
  | transition op target htarget hid htargetInstance hfrom hto hvalidated =>
    by_cases hsame : node.nodeId = target.nodeId
    · obtain rfl := hkeyed.eq hnode htarget hsame
      have hops : transitionsOf node.nodeId [.transition op] = [op] := by simp [transitionsOf, hid]
      rw [hops]
      refine ⟨node.inState htargetInstance op.toState,
        ⟨Table.mem_update.mpr (.inl ⟨node, hnode, rfl, rfl⟩), rfl, hinstance, rfl, rfl, ?_⟩⟩
      intro s hs
      obtain rfl : op.fromState = s := Option.some.inj (hfrom.symm.trans hs)
      exact ⟨op.toState, rfl, rfl, hto, hvalidated, rfl⟩
    · have hne : op.nodeId ≠ node.nodeId := fun h => hsame (h.symm.trans hid.symm)
      have hops : transitionsOf node.nodeId [.transition op] = [] := by simp [transitionsOf, hne]
      rw [hops]
      exact ⟨node, .of_mem hinstance (Table.mem_update.mpr (.inr ⟨hnode, hsame⟩))⟩
  | removeEdge op => exact ⟨node, .of_mem hinstance hnode⟩
  | removeNode op target htarget hid hother =>
    refine ⟨node, .of_mem hinstance (List.mem_filter.mpr ⟨hnode, decide_eq_true (fun hsame => ?_)⟩)⟩
    obtain rfl := hkeyed.eq hnode htarget (hsame.trans hid.symm)
    exact hother hinstance

/-- An active instance -/
def StackNode.Active (node : StackNode) : Prop :=
  node.nodeType = .productInstance ∧ node.productInstanceState = some .active

/-- A transition of a node to the active state, after its deployment was validated -/
def Activates (operations : List PatchOperation) (nodeId : String) : Prop :=
  ∃ op, .transition op ∈ operations ∧ op.nodeId = nodeId ∧ op.toState = .active ∧
    op.deploymentValidated = true

/-- An instance is active after an operation only if it was before, or if the operation activates
    it. -/
theorem Applies.active (h : Applies g op g') {node : StackNode} (hnode : node ∈ g'.nodes)
    (hactive : node.Active) :
    (∃ before ∈ g.nodes, before.nodeId = node.nodeId ∧ before.Active) ∨
      Activates [op] node.nodeId := by
  cases h with
  | addNode op =>
    rcases List.mem_append.mp hnode with hold | hnew
    · exact .inl ⟨node, hold, rfl, hactive⟩
    · rw [List.mem_singleton.mp hnew] at hactive
      exact absurd hactive op.unactivated
  | addEdge op => exact .inl ⟨node, hnode, rfl, hactive⟩
  | transition op target htarget hid hinstance hfrom hto hvalidated =>
    rcases Table.mem_update.mp hnode with ⟨_, -, -, rfl⟩ | ⟨hold, -⟩
    · have hto : op.toState = .active := Option.some.inj hactive.2
      exact .inr ⟨op, List.mem_singleton_self _, hid.symm, hto, hvalidated hto⟩
    · exact .inl ⟨node, hold, rfl, hactive⟩
  | removeEdge op => exact .inl ⟨node, hnode, rfl, hactive⟩
  | removeNode op => exact .inl ⟨node, (List.mem_filter.mp hnode).1, rfl, hactive⟩

end Stackfile
