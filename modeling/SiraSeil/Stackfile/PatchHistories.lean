-- SUMMARY: Histories of patched snapshots: every success keeps the graph valid and every product instance on its lifecycle, and of the patches for one snapshot at most one succeeds.
import SiraSeil.Stackfile.Patches

/-!
# Patch histories

Patches are applied one after another, each to the snapshot that the last success left.
-/

namespace Stackfile

open Domain Sorting Raising

/-! ## Whole patches -/

/-- Operations that are all applied, one after another -/
inductive AppliesAll : Graph → List PatchOperation → Graph → Prop
  | nil (g : Graph) : AppliesAll g [] g
  | cons {g g' g'' : Graph} {op : PatchOperation} {operations : List PatchOperation}
      (hop : Applies g op g') (hrest : AppliesAll g' operations g'') :
      AppliesAll g (op :: operations) g''

variable {g g' : Graph} {operations : List PatchOperation}

theorem mem_simulateOperations {issues : List PatchIssue} {issue : PatchIssue}
    (h : issue ∈ issues) : issue ∈ (simulateOperations g issues operations).2 := by
  induction operations generalizing g issues with
  | nil => exact h
  | cons op operations ih =>
    unfold simulateOperations
    split
    · exact ih h
    · exact ih (List.mem_append_left _ h)

theorem appliesAll_of_simulate (h : simulateOperations g [] operations = (g', [])) :
    AppliesAll g operations g' := by
  induction operations generalizing g with
  | nil =>
    cases h
    exact .nil _
  | cons op operations ih =>
    unfold simulateOperations at h
    cases hop : applyOperation g op with
    | ok next =>
      rw [hop] at h
      exact .cons (applies_of_eq_ok hop) (ih h)
    | error issue =>
      rw [hop] at h
      dsimp only at h
      have hmem : issue ∈ (simulateOperations g ([] ++ [issue]) operations).2 :=
        mem_simulateOperations (List.mem_append_right _ (List.mem_singleton_self issue))
      rw [h] at hmem
      cases hmem

theorem transitionsOf_cons (nodeId : String) (op : PatchOperation)
    (operations : List PatchOperation) :
    transitionsOf nodeId (op :: operations) =
      transitionsOf nodeId [op] ++ transitionsOf nodeId operations :=
  @List.filterMap_append _ _ [op] operations _

theorem AppliesAll.keeps (h : AppliesAll g operations g')
    (hkeyed : Table.Keyed StackNode.nodeId g.nodes) {node : StackNode} (hnode : node ∈ g.nodes)
    (hinstance : node.nodeType = .productInstance) :
    ∃ node', KeepsInstance g'.nodes (transitionsOf node.nodeId operations) node node' := by
  induction h generalizing node with
  | nil g => exact ⟨node, .of_mem hinstance hnode⟩
  | cons hop hrest ih =>
    obtain ⟨between, hfirst⟩ := hop.keeps hkeyed hnode hinstance
    obtain ⟨last, hlast⟩ := ih (hop.keyed hkeyed) hfirst.mem hfirst.nodeType
    rw [hfirst.nodeId] at hlast
    rw [transitionsOf_cons]
    exact ⟨last, hfirst.trans hlast⟩

theorem AppliesAll.active (h : AppliesAll g operations g') {node : StackNode}
    (hnode : node ∈ g'.nodes) (hactive : node.Active) :
    (∃ before ∈ g.nodes, before.nodeId = node.nodeId ∧ before.Active) ∨
      Activates operations node.nodeId := by
  induction h generalizing node with
  | nil g => exact .inl ⟨node, hnode, rfl, hactive⟩
  | cons hop hrest ih =>
    rcases ih hnode hactive with ⟨between, hbetween, hid, hbetweenActive⟩ | ⟨op, hmem, hop⟩
    · rcases hop.active hbetween hbetweenActive with ⟨before, hbefore, hid', hstill⟩ |
        ⟨op, hmem, hid', hto⟩
      · exact .inl ⟨before, hbefore, hid'.trans hid, hstill⟩
      · exact .inr ⟨op, List.mem_cons.mpr (.inl (List.mem_singleton.mp hmem)), hid'.trans hid, hto⟩
    · exact .inr ⟨op, List.mem_cons_of_mem _ hmem, hop⟩

/-! ## Applications -/

variable {rt : Runtime}

/-- A patch that is simulated, or applied after its approval -/
inductive Application (rt : Runtime)
  | simulate (patch : StackPatch rt)
  | applyApproved (patch : StackPatch rt)

def Application.patch : Application rt → StackPatch rt
  | simulate patch => patch
  | applyApproved patch => patch

def Application.run (a : Application rt) (base : StackSnapshot rt) :
    Except StackError (StackSnapshot rt) :=
  match a with
  | simulate patch => simulatePatch base patch
  | applyApproved patch => applyApprovedPatch base patch

/-- The snapshot that is left, after a success or a failure -/
def applied (base : StackSnapshot rt) (a : Application rt) : StackSnapshot rt :=
  match a.run base with
  | .ok s => s
  | .error _ => base

/-- The snapshot after applications, each to what the one before has left -/
def history (base : StackSnapshot rt) (applications : List (Application rt)) : StackSnapshot rt :=
  applications.foldl applied base

/-! ## Successes -/

variable {base s : StackSnapshot rt} {patch : StackPatch rt}

/-- What a success of a patch keeps of a snapshot, and what it changes -/
structure Preserves (base : StackSnapshot rt) (patch : StackPatch rt) (s : StackSnapshot rt) :
    Prop where
  graph : validateGraph s.nodes s.edges = .ok ()
  schemaVersion : s.schemaVersion = base.schemaVersion
  organizationId : s.organizationId = base.organizationId
  version : s.version = base.version + 1
  instances : ∀ node ∈ base.nodes, node.nodeType = .productInstance → ∃ node',
    KeepsInstance s.nodes (transitionsOf node.nodeId patch.operations) node node'
  activated : ∀ node ∈ s.nodes, node.Active →
    (∃ before ∈ base.nodes, before.nodeId = node.nodeId ∧ before.Active) ∨
      Activates patch.operations node.nodeId
  cancelled : ∀ node ∈ base.nodes, node.productInstanceState = some .cancelled →
    ∃ node' ∈ s.nodes, node'.nodeId = node.nodeId ∧ node'.productInstanceState = some .cancelled

/-- A patch is for a snapshot: for its version and its content. -/
def StackPatch.IsFor (patch : StackPatch rt) (base : StackSnapshot rt) : Prop :=
  patch.baseSnapshotVersion = base.version ∧ patch.baseSnapshotHash = base.contentHash

theorem baseIssues_eq_nil : baseIssues base patch = [] ↔
    patch.organizationId = base.organizationId ∧ patch.IsFor base := by
  unfold baseIssues StackPatch.IsFor
  rw [List.append_eq_nil_iff]
  constructor
  · rintro ⟨htenant, hbase⟩
    split at htenant
    · cases htenant
    · next hsame =>
      split at hbase
      · cases hbase
      · next hcurrent =>
        rw [not_or, not_not, not_not] at hcurrent
        exact ⟨not_not.mp hsame, hcurrent⟩
  · rintro ⟨htenant, hversion, hhash⟩
    simp [htenant, hversion, hhash]

theorem simulatePatch_eq_ok : simulatePatch base patch = .ok s ↔
    baseIssues base patch = [] ∧ ∃ g,
      simulateOperations ⟨base.nodes, base.edges⟩ [] patch.operations = (g, []) ∧
        StackSnapshot.build rt base.schemaVersion base.organizationId (base.version + 1) g.nodes
          g.edges = .ok s := by
  unfold simulatePatch validatePatch
  constructor
  · intro h
    obtain ⟨validation, hvalidation, h⟩ := bind_eq_ok.mp h
    rw [mapError_eq_ok] at hvalidation
    split at hvalidation
    · cases hvalidation
      cases h
    · next hbase =>
      split at hvalidation
      · next g hsimulated =>
        split at hvalidation
        · next simulated hbuilt =>
          cases hvalidation
          cases h
          exact ⟨not_not.mp hbase, g, hsimulated, hbuilt⟩
        · cases hvalidation
          cases h
        · cases hvalidation
      · cases hvalidation
        cases h
  · rintro ⟨hbase, g, hsimulated, hbuilt⟩
    simp only [hbase, hsimulated, hbuilt]
    rfl

theorem StackSnapshot.validateGraph_eq_ok (s : StackSnapshot rt) :
    validateGraph s.nodes s.edges = .ok () :=
  Stackfile.validateGraph_eq_ok.mpr s.graphValid

theorem preserves_of_simulatePatch (h : simulatePatch base patch = .ok s) :
    Preserves base patch s := by
  obtain ⟨-, g, hsimulated, hbuilt⟩ := simulatePatch_eq_ok.mp h
  have happlied := appliesAll_of_simulate hsimulated
  obtain ⟨hschema, horganization, hversion, hnodes, -⟩ := StackSnapshot.build_eq_ok hbuilt
  have hmem : ∀ node, node ∈ s.nodes ↔ node ∈ g.nodes := by
    intro node
    rw [hnodes, mem_sortedBy]
  have hinstances : ∀ node ∈ base.nodes, node.nodeType = .productInstance → ∃ node',
      KeepsInstance s.nodes (transitionsOf node.nodeId patch.operations) node node' := by
    intro node hnode hinstance
    obtain ⟨node', hkeeps⟩ := happlied.keeps base.graphValid.nodeIds hnode hinstance
    exact ⟨node', { hkeeps with mem := (hmem node').mpr hkeeps.mem }⟩
  refine ⟨s.validateGraph_eq_ok, hschema, horganization, hversion, hinstances, ?_, ?_⟩
  · intro node hnode hactive
    exact happlied.active ((hmem node).mp hnode) hactive
  · intro node hnode hcancelled
    have hinstance : node.nodeType = .productInstance := node.staged.mpr (by rw [hcancelled]; rfl)
    obtain ⟨node', hkeeps⟩ := hinstances node hnode hinstance
    obtain ⟨state, hstate, hmoves⟩ := hkeeps.moves .cancelled hcancelled
    exact ⟨node', hkeeps.mem, hkeeps.nodeId, hmoves.cancelled ▸ hstate⟩

/-! ## Histories -/

theorem Application.simulatePatch_of_run {a : Application rt} (h : a.run base = .ok s) :
    simulatePatch base a.patch = .ok s := by
  cases a with
  | simulate patch => exact h
  | applyApproved patch =>
    simp only [Application.run, applyApprovedPatch] at h
    split at h
    · cases h
    · exact h

theorem history_append (base : StackSnapshot rt) (before after : List (Application rt)) :
    history base (before ++ after) = history (history base before) after :=
  List.foldl_append

theorem history_related {R : StackSnapshot rt → StackSnapshot rt → Prop} (hrefl : ∀ s, R s s)
    (htrans : ∀ s t u, R s t → R t u → R s u)
    (hstep : ∀ s patch t, Preserves s patch t → R s t) (base : StackSnapshot rt)
    (applications : List (Application rt)) : R base (history base applications) := by
  induction applications generalizing base with
  | nil => exact hrefl base
  | cons a applications ih =>
    refine htrans _ (applied base a) _ ?_ (ih _)
    unfold applied
    split
    · next s hrun =>
      exact hstep _ a.patch _ (preserves_of_simulatePatch (Application.simulatePatch_of_run hrun))
    · exact hrefl base

/-- A step of the lifecycle -/
def LifecycleStep (s s' : ProductInstanceState) : Prop :=
  s' ∈ instanceTransitions s

theorem Moves.lifecycle {ops : List TransitionProductInstance} {s s' : ProductInstanceState}
    (h : Moves s ops s') : Relation.ReflTransGen LifecycleStep s s' := by
  induction ops generalizing s with
  | nil => exact h ▸ .refl
  | cons op ops ih => exact .head h.2.1 (ih h.2.2.2)

/-- Every instance is still there, as it was but for its state, which has moved along the
    lifecycle. -/
def Survive (base s : StackSnapshot rt) : Prop :=
  ∀ node ∈ base.nodes, ∀ state ∈ node.productInstanceState, ∃ node' ∈ s.nodes,
    node'.nodeId = node.nodeId ∧ node'.nodeType = .productInstance ∧
      node'.nodeAlias = node.nodeAlias ∧ node'.attributes = node.attributes ∧
        ∃ state' ∈ node'.productInstanceState, Relation.ReflTransGen LifecycleStep state state'

theorem survive_refl (s : StackSnapshot rt) : Survive s s :=
  fun node hnode state hstate => ⟨node, hnode, rfl, node.staged.mpr (Option.isSome_of_mem hstate),
    rfl, rfl, state, hstate, .refl⟩

theorem survive_trans {s t u : StackSnapshot rt} (h : Survive s t) (h' : Survive t u) :
    Survive s u := by
  intro node hnode state hstate
  obtain ⟨node', hnode', hid, -, halias, hattributes, state', hstate', hmoved⟩ :=
    h node hnode state hstate
  obtain ⟨last, hlast, hid', htype, halias', hattributes', state'', hstate'', hmoved'⟩ :=
    h' node' hnode' state' hstate'
  exact ⟨last, hlast, hid'.trans hid, htype, halias'.trans halias, hattributes'.trans hattributes,
    state'', hstate'', hmoved.trans hmoved'⟩

theorem Preserves.survive (h : Preserves base patch s) : Survive base s := by
  intro node hnode state hstate
  obtain ⟨node', hkeeps⟩ :=
    h.instances node hnode (node.staged.mpr (Option.isSome_of_mem hstate))
  obtain ⟨state', hstate', hmoves⟩ := hkeeps.moves state hstate
  exact ⟨node', hkeeps.mem, hkeeps.nodeId, hkeeps.nodeType, hkeeps.nodeAlias, hkeeps.attributes,
    state', hstate', hmoves.lifecycle⟩

theorem simulatedSnapshot_of_issues {validation : PatchValidation rt}
    (h : validatePatch base patch = .ok validation) (hissues : validation.issues ≠ []) :
    validation.simulatedSnapshot = none ∧ ∀ s, simulatePatch base patch ≠ .ok s := by
  have hnone : validation.simulatedSnapshot = none := by
    unfold validatePatch at h
    split at h
    · cases h
      rfl
    · split at h
      · split at h
        · cases h
          exact absurd rfl hissues
        · cases h
          rfl
        · cases h
      · cases h
        rfl
  refine ⟨hnone, fun s hs => ?_⟩
  unfold simulatePatch at hs
  rw [h] at hs
  obtain ⟨valid, issues, simulated⟩ := validation
  cases hnone
  cases valid <;> cases hs

/-- In every history of patches that are simulated or applied: the instances survive on their
    lifecycle, every success preserves the graph and moves instances only by the transitions of its
    patch, and a patch with an issue yields no snapshot. -/
theorem patches_preserve_graph_and_lifecycle (base : StackSnapshot rt)
    (applications : List (Application rt)) :
    Survive base (history base applications) ∧
      (∀ (a : Application rt) s, a.run (history base applications) = .ok s →
        Preserves (history base applications) a.patch s) ∧
      ∀ patch validation, validatePatch (history base applications) patch = .ok validation →
        validation.issues ≠ [] → validation.simulatedSnapshot = none ∧
          ∀ a : Application rt, a.patch = patch → ∀ s, a.run (history base applications) ≠ .ok s := by
  refine ⟨?_, ?_, ?_⟩
  · exact history_related survive_refl (fun _ _ _ => survive_trans) (fun _ _ _ h => h.survive) base
      applications
  · intro a s hrun
    exact preserves_of_simulatePatch (Application.simulatePatch_of_run hrun)
  · intro patch validation hvalidation hissues
    obtain ⟨hnone, hfails⟩ := simulatedSnapshot_of_issues hvalidation hissues
    refine ⟨hnone, ?_⟩
    rintro a rfl s hrun
    exact hfails s (Application.simulatePatch_of_run hrun)

/-! ## A staged product -/

namespace Sample

def decisions : StackNode where
  nodeId := "jtbd_decisions"
  nodeAlias := "jtbd_decisions"
  nodeType := .jtbd

def zoom : StackNode where
  nodeId := "instance_zoom"
  nodeAlias := "zoom"
  nodeType := .productInstance
  productInstanceState := some .active

def zoomDecides : StackEdge where
  edgeId := "edge_zoom_jtbd"
  fromNodeId := "instance_zoom"
  toNodeId := "jtbd_decisions"
  edgeType := .fulfills
  criticality := .high

def selected : StackNode where
  nodeId := "instance_selected"
  nodeAlias := "selected_fit"
  nodeType := .productInstance
  attributes := [("pack_id", .str "fixture_selected_fit"), ("entitlement_id", .str "ent_demo")]
  productInstanceState := some .provisioned

/-- The product is staged, and starts its deployment. -/
def staging : List PatchOperation :=
  [.addNode { operationId := "op_add_selected", node := selected },
    .transition {
      operationId := "op_deploy_selected"
      nodeId := "instance_selected"
      fromState := .provisioned
      toState := .deploying }]

theorem isHash_of_ascii {v : Value} {hash : String} (h : contentHash .ascii v = .ok hash) :
    isHash hash = true := by
  obtain ⟨-, rfl⟩ := contentHash_eq_ok.mp h
  obtain ⟨hlength, hdigits⟩ := hexDigests_ascii v
  have hdrop : ("sha256:" ++ Runtime.ascii.hexdigest v).toList.drop 7 =
      (Runtime.ascii.hexdigest v).toList := by
    rw [String.toList_append]
    rfl
  have hstarts : startsWith ("sha256:" ++ Runtime.ascii.hexdigest v) "sha256:" = true := by
    unfold startsWith
    rw [String.toList_append]
    exact List.isPrefixOf_iff_prefix.mpr (List.prefix_append _ _)
  unfold isHash
  simp only [hdrop, hstarts, hlength, decide_true, Bool.and_self, Bool.true_and]
  exact List.all_eq_true.mpr (fun c hc => decide_eq_true (hdigits c hc))

theorem exists_success : ∃ (base : StackSnapshot .ascii) (patch : StackPatch .ascii) (s : _),
    patch.IsFor base ∧ (Application.applyApproved patch).run base = .ok s := by
  obtain ⟨base, hbase⟩ := exists_of_isOk (x := StackSnapshot.build .ascii "sira.ai/v1"
    "org_demo" 1 [decisions, zoom] [zoomDecides]) (by decide +kernel)
  obtain ⟨hschema, horganization, hversion, hnodes, hedges⟩ := StackSnapshot.build_eq_ok hbase
  have hhash : isHash base.contentHash = true := by
    have hchecked := base.checked
    unfold snapshotHash at hchecked
    simp only [unless_throw_eq_ok, check_bind_eq_ok] at hchecked
    obtain ⟨-, -, -, -, hcontent⟩ := hchecked
    exact isHash_of_ascii hcontent
  obtain ⟨digest, hdigest⟩ : ∃ digest, patchDigest .ascii "1.0.0" "patch_demo" "org_demo" 1
      base.contentHash staging = .ok digest := by
    unfold patchDigest
    simp only [unless_throw_eq_ok, check_bind_eq_ok, exists_and_left]
    refine ⟨by decide, by decide, by simp [hhash], by decide, by decide, by decide, ?_⟩
    rw [exists_contentHash_eq_ok]
    simp [staging, selected, PatchOperation.toValue, StackNode.toValue]
  let patch : StackPatch .ascii := {
    schemaVersion := "1.0.0"
    patchId := "patch_demo"
    organizationId := "org_demo"
    baseSnapshotVersion := 1
    baseSnapshotHash := base.contentHash
    operations := staging
    status := .approved
    patchHash := digest
    checked := hdigest }
  have hfor : patch.IsFor base := ⟨hversion.symm, rfl⟩
  have hissues : (simulateOperations ⟨base.nodes, base.edges⟩ [] staging).2 = [] := by
    rw [hnodes, hedges]
    exact List.isEmpty_iff.mp (by decide +kernel)
  obtain ⟨s, hs⟩ : ∃ s, StackSnapshot.build .ascii base.schemaVersion base.organizationId
      (base.version + 1) (simulateOperations ⟨base.nodes, base.edges⟩ [] staging).1.nodes
        (simulateOperations ⟨base.nodes, base.edges⟩ [] staging).1.edges = .ok s := by
    rw [hschema, horganization, hversion, hnodes, hedges]
    exact exists_of_isOk (by decide +kernel)
  refine ⟨base, patch, s, hfor, simulatePatch_eq_ok.mpr ⟨?_, _, ?_, hs⟩⟩
  · exact baseIssues_eq_nil.mpr ⟨horganization.symm, hfor⟩
  · exact Prod.ext rfl hissues

end Sample

theorem patches_preserve_graph_and_lifecycle_sample :
    ∃ (base : StackSnapshot .ascii) (patch : StackPatch .ascii) (s : _),
      (Application.applyApproved patch).run base = .ok s ∧ Preserves base patch s := by
  obtain ⟨base, patch, s, -, hrun⟩ := Sample.exists_success
  exact ⟨base, patch, s, hrun, (patches_preserve_graph_and_lifecycle base []).2.1 _ s hrun⟩

/-! ## Competing patches -/

theorem version_le_history (base : StackSnapshot rt) (applications : List (Application rt)) :
    base.version ≤ (history base applications).version := by
  refine history_related (R := fun s t => s.version ≤ t.version) (fun _ => le_refl _)
    (fun _ _ _ => le_trans) (fun s patch t h => ?_) base applications
  rw [h.version]
  omega

theorem version_lt_history {a : Application rt} (hrun : a.run base = .ok s)
    (later : List (Application rt)) :
    a.patch.baseSnapshotVersion < (history base (a :: later)).version := by
  have hsimulated := Application.simulatePatch_of_run hrun
  obtain ⟨hbase, -⟩ := simulatePatch_eq_ok.mp hsimulated
  obtain ⟨-, hversion, -⟩ := baseIssues_eq_nil.mp hbase
  have hgrown := (preserves_of_simulatePatch hsimulated).version
  have hlater := version_le_history s later
  have hhistory : history base (a :: later) = history s later := by
    show history (applied base a) later = history s later
    unfold applied
    rw [hrun]
  rw [hhistory]
  omega

/-- `STALE_BASE` -/
def staleBase : PatchIssue :=
  ⟨"STALE_BASE", "Patch base version or hash is stale", none⟩

/-- The error of a patch with issues -/
def refused (issues : List PatchIssue) : StackError :=
  .domain (.domainValidation ("invalid Stackfile patch: " ++
    "; ".intercalate (issues.map PatchIssue.detail)))

theorem validatePatch_stale (h : patch.baseSnapshotVersion ≠ base.version) :
    ∃ issues, staleBase ∈ issues ∧ validatePatch base patch = .ok ⟨false, issues, none⟩ ∧
      simulatePatch base patch = .error (refused issues) := by
  have hstale : staleBase ∈ baseIssues base patch := by
    unfold baseIssues
    rw [if_pos (c := _ ∨ _) (.inl h)]
    exact List.mem_append_right _ (List.mem_singleton_self _)
  have hvalidation : validatePatch base patch = .ok ⟨false, baseIssues base patch, none⟩ := by
    unfold validatePatch
    rw [if_pos (List.ne_nil_of_mem hstale)]
  refine ⟨_, hstale, hvalidation, ?_⟩
  unfold simulatePatch
  rw [hvalidation]
  rfl

/-- Status changes, one after another -/
def transitionAll (patch : StackPatch rt) (targets : List StackPatchStatus) :
    Except StackError (StackPatch rt) :=
  targets.foldlM transitionPatchStatus patch

theorem transitionPatchStatus_eq_ok {patch patch' : StackPatch rt} {target : StackPatchStatus}
    (h : transitionPatchStatus patch target = .ok patch') :
    patch' = { patch with status := target } := by
  unfold transitionPatchStatus at h
  split at h
  · cases h
  · rw [mapError_eq_ok] at h
    unfold StackPatch.build at h
    split at h
    · cases h
    · next computed hcomputed =>
      obtain rfl : patch.patchHash = computed := Except.ok.inj (patch.checked.symm.trans hcomputed)
      split at h
      · cases h
      · split at h
        · cases h
        · cases h
          rfl

theorem transitionAll_eq_ok {patch patch' : StackPatch rt} {targets : List StackPatchStatus}
    (h : transitionAll patch targets = .ok patch') :
    ∃ status, patch' = { patch with status := status } := by
  induction targets generalizing patch with
  | nil =>
    cases h
    exact ⟨patch'.status, rfl⟩
  | cons target targets ih =>
    obtain ⟨next, hfirst, hrest⟩ := bind_eq_ok.mp h
    obtain rfl := transitionPatchStatus_eq_ok hfirst
    obtain ⟨status, rfl⟩ := ih hrest
    exact ⟨status, rfl⟩

/-- A patch that succeeded is stale ever after, and no other patch for the same snapshot succeeds. -/
theorem stale_after_success {before : List (Application rt)} {a : Application rt}
    (hrun : a.run (history base before) = .ok s) (between : List (Application rt)) :
    (∀ b : Application rt, a.patch.IsFor base → b.patch.IsFor base →
      ∃ e, b.run (history base (before ++ a :: between)) = .error e) ∧
    ∃ issues, staleBase ∈ issues ∧
      validatePatch (history base (before ++ a :: between)) a.patch = .ok ⟨false, issues, none⟩ ∧
        a.run (history base (before ++ a :: between)) = .error (refused issues) := by
  rw [history_append]
  have hlt := version_lt_history hrun between
  constructor
  · intro b ha hb
    cases hsecond : b.run (history (history base before) (a :: between)) with
    | error e => exact ⟨e, rfl⟩
    | ok t =>
      obtain ⟨hissues, -⟩ := simulatePatch_eq_ok.mp (Application.simulatePatch_of_run hsecond)
      obtain ⟨-, hversion, -⟩ := baseIssues_eq_nil.mp hissues
      have hsame : b.patch.baseSnapshotVersion = a.patch.baseSnapshotVersion := hb.1.trans ha.1.symm
      omega
  · obtain ⟨issues, hstale, hvalidation, hrefused⟩ := validatePatch_stale hlt.ne
    refine ⟨issues, hstale, hvalidation, ?_⟩
    cases a with
    | simulate patch => exact hrefused
    | applyApproved patch =>
      simp only [Application.run, applyApprovedPatch] at hrun ⊢
      split at hrun
      · cases hrun
      · next happroved =>
        rw [if_neg happroved]
        exact hrefused

/-- In every history from a snapshot at most one patch for that snapshot succeeds, a patch that
    succeeded is stale ever after, and no run of status changes touches the hash, the base or the
    operations of a patch. -/
theorem competing_patches_apply_once (base : StackSnapshot rt) :
    (∀ (before between : List (Application rt)) (a : Application rt) s,
      a.run (history base before) = .ok s →
        (∀ b : Application rt, a.patch.IsFor base → b.patch.IsFor base →
          ∃ e, b.run (history base (before ++ a :: between)) = .error e) ∧
        ∃ issues, staleBase ∈ issues ∧
          validatePatch (history base (before ++ a :: between)) a.patch = .ok ⟨false, issues, none⟩ ∧
            a.run (history base (before ++ a :: between)) = .error (refused issues)) ∧
    ∀ (patch patch' : StackPatch rt) targets, transitionAll patch targets = .ok patch' →
      patch'.patchHash = patch.patchHash ∧
        patch'.baseSnapshotVersion = patch.baseSnapshotVersion ∧
          patch'.baseSnapshotHash = patch.baseSnapshotHash ∧
            patch'.operations = patch.operations := by
  refine ⟨fun before between a s hrun => stale_after_success hrun between, ?_⟩
  intro patch patch' targets h
  obtain ⟨status, rfl⟩ := transitionAll_eq_ok h
  exact ⟨rfl, rfl, rfl, rfl⟩

theorem competing_patches_apply_once_sample :
    ∃ (base : StackSnapshot .ascii) (patch : StackPatch .ascii) (s : _),
      (Application.applyApproved patch).run base = .ok s ∧
        ∃ e, (Application.applyApproved patch).run
          (history base [.applyApproved patch, .applyApproved patch]) = .error e := by
  obtain ⟨base, patch, s, hfor, hrun⟩ := Sample.exists_success
  exact ⟨base, patch, s, hrun, ((competing_patches_apply_once base).1 [] [.applyApproved patch]
    (.applyApproved patch) s hrun).1 (.applyApproved patch) hfor hfor⟩

end Stackfile
