-- SUMMARY: Stored snapshots: reading the canonical JSON of a snapshot gives the snapshot again, and the order in which a graph is listed does not matter.
import SiraSeil.Domain.EqualJson
import SiraSeil.Stackfile.Documents

/-!
# Stored snapshots

The canonical JSON of a snapshot has its fields in another order than the snapshot, and so have the
attributes of the nodes that are read from it. They are compared as JSON.
-/

namespace Stackfile

open Domain Sorting Raising

/-! ## Nodes and edges -/

theorem nodeKeys_nodup : (["node_id", "alias", "node_type", "attributes", "product_instance_state"] :
    List String).Nodup := by decide

theorem edgeKeys_nodup : (["edge_id", "from_node_id", "to_node_id", "edge_type", "criticality", "hard",
    "evidence_ref", "confidence"] : List String).Nodup := by decide

theorem snapshotKeys_nodup : (["schema_version", "organization_id", "version", "nodes", "edges"] :
    List String).Nodup := by decide

/-- The nodes are the same, with attributes that are equal as JSON. -/
structure StackNode.Alike (n' n : StackNode) : Prop where
  nodeId : n'.nodeId = n.nodeId
  nodeAlias : n'.nodeAlias = n.nodeAlias
  nodeType : n'.nodeType = n.nodeType
  state : n'.productInstanceState = n.productInstanceState
  attributes : SameJson (.obj n'.attributes) (.obj n.attributes)

theorem StackNode.Alike.toValue {n' n : StackNode} (h : n'.Alike n) :
    SameJson n'.toValue n.toValue := by
  apply SameJson.obj_of_forall₂
  rw [h.nodeId, h.nodeAlias, h.nodeType, h.state]
  exact .cons ⟨rfl, .refl _⟩ (.cons ⟨rfl, .refl _⟩ (.cons ⟨rfl, .refl _⟩
    (.cons ⟨rfl, h.attributes⟩ (.cons ⟨rfl, .refl _⟩ .nil))))

variable {c : Conversions}

theorem givenState_opt (state : Option ProductInstanceState) :
    givenState c (some (.opt (fun s => .str s.value) state)) = .ok state := by
  cases state with
  | none => rfl
  | some s =>
    show (do
      let state ← fromPy (instanceStateOf c (.str s.value))
      return some state) = _
    rw [instanceStateOf_value]
    rfl

theorem StackNode.fromDict_alike {n : StackNode} {data : Value} (h : SameJson data n.toValue) :
    ∃ n', StackNode.fromDict c data = .ok n' ∧ n'.Alike n := by
  obtain ⟨fields, rfl, h⟩ := h.obj_right
  have hnodup := nodeKeys_nodup
  have hid : fields.lookup "node_id" = some (.str n.nodeId) := h.lookup_atom hnodup rfl
  have halias : fields.lookup "alias" = some (.str n.nodeAlias) := h.lookup_atom hnodup rfl
  have htype : fields.lookup "node_type" = some (.str n.nodeType.value) := h.lookup_atom hnodup rfl
  have hstate : fields.lookup "product_instance_state" =
      some (.opt (fun s => .str s.value) n.productInstanceState) := by
    cases hgiven : n.productInstanceState with
    | none => exact h.lookup_atom hnodup (by rw [hgiven]; rfl)
    | some s => exact h.lookup_atom hnodup (by rw [hgiven]; rfl)
  have hvalue : ([("node_id", .str n.nodeId), ("alias", .str n.nodeAlias),
      ("node_type", .str n.nodeType.value), ("attributes", .obj n.attributes),
      ("product_instance_state", .opt (fun s => .str s.value) n.productInstanceState)] :
        List (String × Value)).lookup "attributes" = some (.obj n.attributes) := rfl
  obtain ⟨v, hattributes, hsame⟩ := h.lookup_some hnodup hvalue
  obtain ⟨attributes, rfl, hsame⟩ := hsame.obj_right
  refine ⟨⟨n.nodeId, n.nodeAlias, n.nodeType, attributes, n.productInstanceState, n.identified,
    n.staged⟩, ?_, ⟨rfl, rfl, rfl, rfl, hsame⟩⟩
  unfold StackNode.fromDict
  simp only [fieldsOf, require, hid, halias, htype, hattributes, hstate, ok_bind,
    nodeTypeOf_value, givenState_opt, Option.getD_some, c.str_str]
  rw [fromPy_eq_ok.mpr rfl, ok_bind]
  exact fromPy_eq_ok.mpr (StackNode.make_eq_ok.mpr ⟨rfl, rfl, rfl, rfl, rfl⟩)

theorem givenReference_opt (reference : Option String) :
    givenReference (some (.opt .str reference)) = .ok reference := by
  cases reference <;> rfl

theorem StackEdge.fromDict_eq {e : StackEdge} {data : Value} (h : SameJson data e.toValue) :
    StackEdge.fromDict c data = .ok e := by
  obtain ⟨fields, rfl, h⟩ := h.obj_right
  have hnodup := edgeKeys_nodup
  have hid : fields.lookup "edge_id" = some (.str e.edgeId) := h.lookup_atom hnodup rfl
  have hfrom : fields.lookup "from_node_id" = some (.str e.fromNodeId) := h.lookup_atom hnodup rfl
  have hto : fields.lookup "to_node_id" = some (.str e.toNodeId) := h.lookup_atom hnodup rfl
  have htype : fields.lookup "edge_type" = some (.str e.edgeType.value) := h.lookup_atom hnodup rfl
  have hlevel : fields.lookup "criticality" = some (.str e.criticality.value) :=
    h.lookup_atom hnodup rfl
  have hhard : fields.lookup "hard" = some (.bool e.hard) := h.lookup_atom hnodup rfl
  have hreference : fields.lookup "evidence_ref" = some (.opt .str e.evidenceRef) := by
    cases hgiven : e.evidenceRef with
    | none => exact h.lookup_atom hnodup (by rw [hgiven]; rfl)
    | some s => exact h.lookup_atom hnodup (by rw [hgiven]; rfl)
  have hconfidence : fields.lookup "confidence" = some (.str e.confidence) :=
    h.lookup_atom hnodup rfl
  unfold StackEdge.fromDict
  simp only [fieldsOf, require, hid, hfrom, hto, htype, hlevel, hhard, hreference, hconfidence,
    ok_bind, edgeTypeOf_value, criticalityOf_value, givenReference_opt, Option.getD_some,
    c.str_str, truthy]
  rw [fromPy_eq_ok.mpr rfl, ok_bind, fromPy_eq_ok.mpr rfl, ok_bind]
  exact fromPy_eq_ok.mpr (StackEdge.make_eq_ok.mpr ⟨rfl, rfl, rfl, rfl, rfl, rfl, rfl, rfl⟩)

/-! ## Graphs -/

theorem exists_of_forall₂ {α β : Type} {R : α → β → Prop} {l : List α} {l' : List β}
    (h : List.Forall₂ R l l') {a : α} (ha : a ∈ l) : ∃ b ∈ l', R a b := by
  induction h with
  | nil => cases ha
  | @cons a' b l l' hab _ ih =>
    rcases List.mem_cons.mp ha with rfl | ha
    · exact ⟨b, List.mem_cons_self, hab⟩
    · obtain ⟨b', hb', hR⟩ := ih ha
      exact ⟨b', List.mem_cons_of_mem b hb', hR⟩

theorem map_eq_of_forall₂ {α β γ : Type} {f : α → γ} {g : β → γ} {l : List α} {l' : List β}
    (h : List.Forall₂ (fun a b => f a = g b) l l') : l.map f = l'.map g := by
  induction h with
  | nil => rfl
  | cons hab _ ih => rw [List.map_cons, List.map_cons, hab, ih]

section Graphs

variable {nodes nodes' : List StackNode} {edges : List StackEdge}

theorem GraphValid.alike (h : GraphValid nodes edges) (halike : List.Forall₂ StackNode.Alike nodes' nodes) :
    GraphValid nodes' edges := by
  have hids : nodes'.map StackNode.nodeId = nodes.map StackNode.nodeId :=
    map_eq_of_forall₂ (halike.imp (fun _ _ hn => hn.nodeId))
  have haliases : nodes'.map StackNode.nodeAlias = nodes.map StackNode.nodeAlias :=
    map_eq_of_forall₂ (halike.imp (fun _ _ hn => hn.nodeAlias))
  have hpresent : ∀ id, (∃ n ∈ nodes, n.nodeId = id) → ∃ n ∈ nodes', n.nodeId = id := by
    intro id hid
    have hmem : id ∈ nodes.map StackNode.nodeId := List.mem_map.mpr hid
    rw [← hids] at hmem
    exact List.mem_map.mp hmem
  refine ⟨?_, ?_, h.edgeIds, ?_, ?_, ?_⟩
  · unfold Table.Keyed
    rw [hids]
    exact h.nodeIds
  · unfold Table.Keyed
    rw [haliases]
    exact h.aliases
  · intro e he
    exact ⟨hpresent _ (h.endpoints e he).1, hpresent _ (h.endpoints e he).2⟩
  · intro e he n' hn' hfulfiller hproduct
    obtain ⟨n, hn, hsame⟩ := exists_of_forall₂ halike hn'
    rw [hsame.state]
    apply h.fulfilled e he n hn
    · rw [← hsame.nodeId]
      exact hfulfiller
    · rw [← hsame.nodeType]
      exact hproduct
  · intro n' hn'
    obtain ⟨n, hn, hsame⟩ := exists_of_forall₂ halike hn'
    rw [hsame.nodeId]
    exact h.acyclic n hn

end Graphs

/-! ## Snapshots -/

variable {rt : Runtime}

/-- `to_hash_payload` -/
def StackSnapshot.toValue (s : StackSnapshot rt) : Value :=
  snapshotValue s.schemaVersion s.organizationId s.version s.nodes s.edges

variable {organizationId schemaVersion : String} {version : Int}

theorem snapshotHash_eq_ok {hash : String} {nodes : List StackNode} {edges : List StackEdge} :
    snapshotHash rt schemaVersion organizationId version nodes edges = .ok hash ↔
      schemaVersion ≠ "" ∧ requireId organizationId "organization_id" = .ok () ∧ ¬ version < 1 ∧
        GraphValid nodes edges ∧
        Domain.contentHash rt (snapshotValue schemaVersion organizationId version nodes edges) =
          .ok hash := by
  unfold snapshotHash
  simp only [unless_throw_eq_ok, check_bind_eq_ok, validateGraph_eq_ok, ne_eq]

theorem StackSnapshot.exists_build {hash : String} {nodes : List StackNode} {edges : List StackEdge}
    (h : snapshotHash rt schemaVersion organizationId version (sortedBy StackNode.nodeId nodes)
      (sortedBy StackEdge.edgeId edges) = .ok hash) :
    ∃ s, StackSnapshot.build rt schemaVersion organizationId version nodes edges "" = .ok s ∧
      s.contentHash = hash := by
  unfold StackSnapshot.build
  split
  · next e he =>
    rw [h] at he
    cases he
  · next computed hcomputed =>
    rw [h] at hcomputed
    obtain rfl := Except.ok.inj hcomputed
    exact ⟨_, rfl, rfl⟩

theorem StackSnapshot.build_perm (s : StackSnapshot rt) {nodes : List StackNode}
    {edges : List StackEdge} (hnodes : nodes.Perm s.nodes) (hedges : edges.Perm s.edges) :
    ∃ s', StackSnapshot.build rt s.schemaVersion s.organizationId s.version nodes edges "" = .ok s' ∧
      s'.contentHash = s.contentHash := by
  apply exists_build
  have hsortedNodes : sortedBy StackNode.nodeId nodes = s.nodes := by
    rw [sortedBy_congr_perm hnodes (.of_nodup ((hnodes.map _).nodup_iff.mpr s.graphValid.nodeIds))]
    exact s.sorted.1
  have hsortedEdges : sortedBy StackEdge.edgeId edges = s.edges := by
    rw [sortedBy_congr_perm hedges (.of_nodup ((hedges.map _).nodup_iff.mpr s.graphValid.edgeIds))]
    exact s.sorted.2
  rw [hsortedNodes, hsortedEdges]
  exact s.checked

theorem snapshotValue_alike {nodes nodes' : List StackNode} {edges : List StackEdge}
    (h : List.Forall₂ StackNode.Alike nodes' nodes) :
    SameJson (snapshotValue schemaVersion organizationId version nodes' edges)
      (snapshotValue schemaVersion organizationId version nodes edges) := by
  apply SameJson.obj_of_forall₂
  have hnodes : SameJson (.seq (nodes'.map StackNode.toValue)) (.seq (nodes.map StackNode.toValue)) := by
    rw [SameJson.seq_iff, List.forall₂_map_left_iff, List.forall₂_map_right_iff]
    exact h.imp (fun _ _ hn => hn.toValue)
  exact .cons ⟨rfl, .refl _⟩ (.cons ⟨rfl, .refl _⟩ (.cons ⟨rfl, .refl _⟩
    (.cons ⟨rfl, hnodes⟩ (.cons ⟨rfl, .refl _⟩ .nil))))

theorem exists_nodes {nodes : List StackNode} {items : List Value}
    (h : List.Forall₂ SameJson items (nodes.map StackNode.toValue)) :
    ∃ nodes', items.mapM (StackNode.fromDict c) = .ok nodes' ∧
      List.Forall₂ StackNode.Alike nodes' nodes := by
  rw [List.forall₂_map_right_iff] at h
  induction h with
  | nil => exact ⟨[], rfl, .nil⟩
  | @cons item n items nodes hitem _ ih =>
    obtain ⟨n', hn', halike⟩ := StackNode.fromDict_alike (c := c) hitem
    obtain ⟨nodes', hnodes', hall⟩ := ih
    refine ⟨n' :: nodes', ?_, .cons halike hall⟩
    rw [List.mapM_cons, hn', ok_bind, hnodes']
    rfl

theorem exists_edges {edges : List StackEdge} {items : List Value}
    (h : List.Forall₂ SameJson items (edges.map StackEdge.toValue)) :
    items.mapM (StackEdge.fromDict c) = .ok edges := by
  rw [List.forall₂_map_right_iff] at h
  induction h with
  | nil => rfl
  | @cons item e items edges hitem _ ih =>
    rw [List.mapM_cons, StackEdge.fromDict_eq hitem, ok_bind, ih]
    rfl

/-- The snapshots have the same fields, the same edges, and nodes that are the same. -/
structure StackSnapshot.Alike (s' s : StackSnapshot rt) : Prop where
  schemaVersion : s'.schemaVersion = s.schemaVersion
  organizationId : s'.organizationId = s.organizationId
  version : s'.version = s.version
  nodes : List.Forall₂ StackNode.Alike s'.nodes s.nodes
  edges : s'.edges = s.edges
  contentHash : s'.contentHash = s.contentHash

theorem StackSnapshot.fromDict_alike {s : StackSnapshot rt} {fields : List (String × Value)}
    (h : SameJson (.obj fields) s.toValue)
    (hrender : ∀ w, SameJson w s.toValue → rt.hexdigest w = rt.hexdigest s.toValue) :
    ∃ s', StackSnapshot.fromDict c rt fields = .ok s' ∧ s'.Alike s := by
  have hnodup := snapshotKeys_nodup
  have hschema : fields.lookup "schema_version" = some (.str s.schemaVersion) :=
    h.lookup_atom hnodup rfl
  have horganization : fields.lookup "organization_id" = some (.str s.organizationId) :=
    h.lookup_atom hnodup rfl
  have hversion : fields.lookup "version" = some (.int s.version) := h.lookup_atom hnodup rfl
  have hhash : fields.lookup "content_hash" = none := h.lookup_none hnodup rfl
  have hvalue : ([("schema_version", .str s.schemaVersion), ("organization_id", .str s.organizationId),
      ("version", .int s.version), ("nodes", .seq (s.nodes.map StackNode.toValue)),
      ("edges", .seq (s.edges.map StackEdge.toValue))] : List (String × Value)).lookup "nodes" =
        some (.seq (s.nodes.map StackNode.toValue)) := rfl
  have hvalue' : ([("schema_version", .str s.schemaVersion), ("organization_id", .str s.organizationId),
      ("version", .int s.version), ("nodes", .seq (s.nodes.map StackNode.toValue)),
      ("edges", .seq (s.edges.map StackEdge.toValue))] : List (String × Value)).lookup "edges" =
        some (.seq (s.edges.map StackEdge.toValue)) := rfl
  obtain ⟨v, hnodes, hsame⟩ := h.lookup_some hnodup hvalue
  obtain ⟨nodeItems, rfl, hnodeItems⟩ := hsame.seq_right
  obtain ⟨v, hedges, hsame⟩ := h.lookup_some hnodup hvalue'
  obtain ⟨edgeItems, rfl, hedgeItems⟩ := hsame.seq_right
  obtain ⟨nodes', hread, halike⟩ := exists_nodes (c := c) hnodeItems
  have hknown : (fields.map Prod.fst).filter (fun name => name ∉ snapshotFields) = [] := by
    rw [List.filter_eq_nil_iff]
    intro name hname
    rw [h.keys_perm.mem_iff] at hname
    have hall : ∀ name ∈ (["schema_version", "organization_id", "version", "nodes", "edges"] :
        List String), name ∈ snapshotFields := by decide
    simpa using hall name hname
  -- The nodes that are read are sorted, since they have the ids of the snapshot's.
  have hsortedNodes : sortedBy StackNode.nodeId nodes' = nodes' := by
    apply sortedBy_of_pairwise
    have hpairwise := sortedBy_pairwise StackNode.nodeId s.nodes
    rw [s.sorted.1] at hpairwise
    rw [← List.pairwise_map (R := (· ≤ ·)), map_eq_of_forall₂ (halike.imp (fun _ _ hn => hn.nodeId)),
      List.pairwise_map]
    exact hpairwise
  have hchecked : snapshotHash rt s.schemaVersion s.organizationId s.version
      (sortedBy StackNode.nodeId nodes') (sortedBy StackEdge.edgeId s.edges) = .ok s.contentHash := by
    obtain ⟨hschema, horganization, hversion, hgraph, hhash⟩ := snapshotHash_eq_ok.mp s.checked
    rw [hsortedNodes, s.sorted.2]
    refine snapshotHash_eq_ok.mpr ⟨hschema, horganization, hversion, hgraph.alike halike, ?_⟩
    have hsame : SameJson
        (snapshotValue s.schemaVersion s.organizationId s.version nodes' s.edges) s.toValue :=
      snapshotValue_alike halike
    obtain ⟨hcanonical, hdigest⟩ := contentHash_eq_ok.mp hhash
    refine contentHash_eq_ok.mpr ⟨hsame.canonical.mpr hcanonical, ?_⟩
    rw [hdigest]
    exact congrArg ("sha256:" ++ ·) (hrender _ hsame).symm
  obtain ⟨s', hbuild, hown⟩ := exists_build hchecked
  obtain ⟨hschema', horganization', hversion', hnodes', hedges'⟩ := build_eq_ok hbuild
  refine ⟨s', ?_, ⟨hschema', horganization', hversion', ?_, ?_, hown⟩⟩
  · unfold StackSnapshot.fromDict
    simp only [hknown, ne_eq, not_true_eq_false, if_false, require, hschema, horganization, hversion,
      hnodes, hedges, hhash, itemsOf, ok_bind, c.int_int, hread, exists_edges hedgeItems,
      c.str_str, Option.getD_none, hbuild]
    rfl
  · rw [hnodes', hsortedNodes]
    exact halike
  · rw [hedges']
    exact s.sorted.2

/-! ## Canonical JSON -/

/-- What is promised of the text of a value: `json.loads` reads an equal value from it, and equal
    values are rendered equally. -/
structure Renders (float : PyStr → PythonJson.PyFloat) (dumps : Value → PyStr) (rt : Runtime)
    (v : Value) : Prop where
  reads : v.IsJson → ∃ w, jsonLoads float (dumps v) = some w ∧ SameJson w v
  hashes : ∀ w, SameJson w v → rt.hexdigest w = rt.hexdigest v

theorem StackNode.isJson {n : StackNode} (h : (Value.obj n.attributes).IsJson) : n.toValue.IsJson := by
  refine Value.isJson_obj.mpr ⟨nodeKeys_nodup, ?_⟩
  simp only [List.forall_mem_cons, Value.isJson_str, h, true_and]
  exact ⟨Value.isJson_opt (fun _ => Value.isJson_str _), by simp⟩

theorem StackEdge.isJson (e : StackEdge) : e.toValue.IsJson := by
  refine Value.isJson_obj.mpr ⟨edgeKeys_nodup, ?_⟩
  simp only [List.forall_mem_cons, Value.isJson_str, Value.isJson_bool, true_and]
  exact ⟨Value.isJson_opt Value.isJson_str, by simp⟩

theorem StackSnapshot.isJson {s : StackSnapshot rt}
    (h : ∀ n ∈ s.nodes, (Value.obj n.attributes).IsJson) : s.toValue.IsJson := by
  refine Value.isJson_obj.mpr ⟨snapshotKeys_nodup, ?_⟩
  simp only [List.forall_mem_cons, Value.isJson_str, Value.isJson_int, Value.isJson_seq,
    List.forall_mem_map, true_and]
  exact ⟨fun n hn => StackNode.isJson (h n hn), fun e _ => StackEdge.isJson e, by simp⟩

/-- Reading the canonical JSON of a snapshot gives the snapshot again, and listing its graph in
    another order does not change its hash. -/
theorem snapshot_round_trip (c : Conversions) {float : PyStr → PythonJson.PyFloat}
    {dumps : Value → PyStr} (s : StackSnapshot rt)
    (hjson : ∀ n ∈ s.nodes, (Value.obj n.attributes).IsJson)
    (hrenders : Renders float dumps rt s.toValue) :
    (∃ fields s', jsonLoads float (dumps s.toValue) = some (.obj fields) ∧
      StackSnapshot.fromDict c rt fields = .ok s' ∧ s'.Alike s) ∧
    ∀ nodes edges, nodes.Perm s.nodes → edges.Perm s.edges →
      ∃ s', StackSnapshot.build rt s.schemaVersion s.organizationId s.version nodes edges "" = .ok s' ∧
        s'.contentHash = s.contentHash := by
  constructor
  · obtain ⟨w, hread, hsame⟩ := hrenders.reads (StackSnapshot.isJson hjson)
    obtain ⟨fields, rfl, hsame⟩ := hsame.obj_right
    obtain ⟨s', hs', halike⟩ := StackSnapshot.fromDict_alike (c := c) hsame hrenders.hashes
    exact ⟨fields, s', hread, hs', halike⟩
  · intro nodes edges hnodes hedges
    exact s.build_perm hnodes hedges

/-! ## A stored snapshot -/

namespace StoredSample

theorem active_tool : NodeType.productInstance = .productInstance ↔
    (some ProductInstanceState.active).isSome := by
  decide

theorem stateless_job : NodeType.jtbd = .productInstance ↔
    (none : Option ProductInstanceState).isSome := by
  decide

theorem known_edge : "confirmed" ∈ confidences := by
  decide

def tool : StackNode where
  nodeId := "tool"
  nodeAlias := "tool"
  nodeType := .productInstance
  attributes := [("version", .str "v1"), ("serves", .strs ["chat", "mail"]),
    ("limits", .obj [("seats", .int 20), ("guests", .null)])]
  productInstanceState := some .active
  staged := active_tool

def job : StackNode where
  nodeId := "job"
  nodeAlias := "job"
  nodeType := .jtbd
  staged := stateless_job

def edge : StackEdge where
  edgeId := "edge_job"
  fromNodeId := "job"
  toNodeId := "tool"
  edgeType := .fulfilledBy
  criticality := .high
  known := known_edge

def float : PyStr → PythonJson.PyFloat := fun _ => .nan

def dumps (v : Value) : PyStr := PyStr.ofChars (Rfc8785.dumps v)

/-- The content of the snapshot, whose nodes are sorted -/
def content : Value := snapshotValue "sira.ai/v1" "org_consultco" 1 [job, tool] [edge]

theorem built : (StackSnapshot.build .ascii "sira.ai/v1" "org_consultco" 1 [tool, job] [edge]).isOk =
    true := by
  decide +kernel

theorem read : (jsonLoads float (dumps content)).any
    (fun w => equalTrees w.tree.sorted content.tree.sorted) = true := by
  decide +kernel

theorem renders : Renders float dumps .ascii content where
  reads _ := by
    obtain ⟨w, hw, hequal⟩ := (Option.any_eq_true _ _).mp read
    exact ⟨w, hw, eq_of_equalTrees _ _ hequal⟩
  hashes _ h := hexdigest_ascii_congr h

end StoredSample

open StoredSample in
theorem snapshot_round_trip_sample : ∃ s : StackSnapshot .ascii, s.toValue = content ∧
    ∃ fields s', jsonLoads float (dumps s.toValue) = some (.obj fields) ∧
      StackSnapshot.fromDict .plain .ascii fields = .ok s' ∧ s'.Alike s := by
  obtain ⟨s, hs⟩ := exists_of_isOk built
  obtain ⟨hschema, horganization, hversion, hnodes, hedges⟩ := StackSnapshot.build_eq_ok hs
  have hvalue : s.toValue = content := by
    unfold StackSnapshot.toValue
    rw [hschema, horganization, hversion, hnodes, hedges]
    rfl
  have hjson : ∀ n ∈ s.nodes, (Value.obj n.attributes).IsJson := by
    intro n hn
    rw [hnodes, mem_sortedBy] at hn
    simp only [List.mem_cons, List.not_mem_nil, or_false] at hn
    rcases hn with rfl | rfl
    · simp [tool, Value.isJson_obj, Value.isJson_seq, Value.isJson_str, Value.isJson_int,
        Value.isJson_null]
    · simp [job, Value.isJson_obj]
  exact ⟨s, hvalue, (snapshot_round_trip .plain s hjson (hvalue ▸ renders)).1⟩

end Stackfile
