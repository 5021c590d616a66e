-- SUMMARY: The compact lock of a first build and its translation to a snapshot, which keeps every instance exactly when no product is listed twice.
import SiraSeil.Library.Dict
import SiraSeil.Stackfile.Documents

/-!
# Compact locks

`_first_build_lock` of `stackfile/models.py`. The instances of a compact lock become nodes under the
ids of their products. Its edges may name endpoints that are not listed, for which nodes are made up.
-/

namespace Stackfile

open Domain Sorting Raising

/-! ## The translation -/

/-- `lifecycle` -/
def lifecycleStates : List (String × ProductInstanceState) :=
  [("planned", .proposed), ("staged", .provisioned), ("active", .active), ("degraded", .degraded),
    ("retiring", .retiring), ("retired", .cancelled), ("cancelled", .cancelled), ("failed", .degraded)]

/-- The type of an endpoint that is not listed -/
def inferredType (edgeType : EdgeType) (isSource : Bool) : NodeType :=
  if (edgeType = .fulfilledBy ∧ isSource = true) ∨ (edgeType = .fulfills ∧ isSource = false) then .jtbd
  else .capability

section Translation

variable (c : Conversions)

def lifecycleOf (name : String) : Reading ProductInstanceState :=
  match lifecycleStates.lookup name with
  | some state => .ok state
  | none => .error (.domain (.domainValidation ("unknown compact lock lifecycle: " ++ name)))

/-- The node of a listed instance -/
def instanceNode (data : Value) : Reading StackNode := do
  let fields ← fieldsOf data
  let productId ← require fields "product_id"
  let lifecycle ← require fields "lifecycle"
  let state ← lifecycleOf (c.str lifecycle)
  let instanceId ← require fields "instance_id"
  let version ← require fields "version"
  let serves ← require fields "serves"
  let integrations ← require fields "integrations"
  fromPy (StackNode.make (c.str productId) (c.str productId) .productInstance
    [("instance_id", instanceId), ("version", version), ("serves", serves),
      ("integrations", integrations)] (some state))

/-- A node for an endpoint that has none -/
def inferNode (edgeType : EdgeType) (isSource : Bool) (endpoint : String)
    (nodes : Dict String StackNode) : Reading (Dict String StackNode) :=
  if nodes.contains endpoint then .ok nodes
  else do
    let node ← fromPy (StackNode.make endpoint endpoint (inferredType edgeType isSource) [] none)
    return nodes.set endpoint node

/-- One round of the loop over the listed edges -/
def listEdge (acc : Dict String StackNode × List StackEdge) (item : Value × Nat) :
    Reading (Dict String StackNode × List StackEdge) := do
  let fields ← fieldsOf item.1
  let typeName ← require fields "type"
  let edgeType ← fromPy (edgeTypeOf c typeName)
  let source ← require fields "from"
  let target ← require fields "to"
  let nodes ← inferNode edgeType true (c.str source) acc.1
  let nodes ← inferNode edgeType false (c.str target) nodes
  let risk ← require fields "criticality"
  let criticality ← fromPy (criticalityOf c risk)
  let edgeId := "edge_" ++ toString item.2 ++ "_" ++ c.str source ++ "_" ++ edgeType.value ++ "_" ++
    c.str target
  let edge ← fromPy (StackEdge.make edgeId (c.str source) (c.str target) edgeType criticality false none
    "confirmed")
  return (nodes, acc.2 ++ [edge])

/-- `_first_build_lock` -/
def firstBuildLock (rt : Runtime) (data : List (String × Value)) : Reading (StackSnapshot rt) := do
  let instances ← itemsOf (data.lookup "instances")
  let listed ← instances.mapM (instanceNode c)
  let edgeItems ← itemsOf (data.lookup "edges")
  let (nodes, edges) ← edgeItems.zipIdx.foldlM (listEdge c)
    (Dict.ofList (listed.map (fun n => (n.nodeId, n))), [])
  let schemaVersion ← require data "schema_version"
  let organizationId ← require data "organization_id"
  let snapshot ← require data "snapshot"
  let version ← c.int snapshot
  fromPy (StackSnapshot.build rt (c.str schemaVersion) (c.str organizationId) version
    (nodes.items.map Prod.snd) edges "")

/-! ## What a lock lists -/

/-- The values that a lock lists under a name -/
def listedIn (data : List (String × Value)) (name : String) : List Value :=
  match itemsOf (data.lookup name) with
  | .ok items => items
  | .error _ => []

/-- A field of an entry -/
def valueAt (entry : Value) (name : String) : Option Value :=
  match entry with
  | .obj fields => fields.lookup name
  | _ => none

/-- The ids of the products of the listed instances -/
def productIds (data : List (String × Value)) : List (Option String) :=
  (listedIn data "instances").map (fun entry => (valueAt entry "product_id").map c.str)

/-- The node is the product instance that the entry lists. -/
structure Carries (entry : Value) (n : StackNode) : Prop where
  product : n.nodeType = .productInstance
  instanceId : n.attributes.lookup "instance_id" = valueAt entry "instance_id"
  version : n.attributes.lookup "version" = valueAt entry "version"
  lifecycle : ∃ v, valueAt entry "lifecycle" = some v ∧
    lifecycleStates.lookup (c.str v) = n.productInstanceState

/-- The edge is the one that the entry lists. -/
structure Links (entry : Value) (e : StackEdge) : Prop where
  edgeType : ∃ v, valueAt entry "type" = some v ∧ edgeTypeOf c v = .ok e.edgeType
  source : (valueAt entry "from").map c.str = some e.fromNodeId
  target : (valueAt entry "to").map c.str = some e.toNodeId
  criticality : ∃ v, valueAt entry "criticality" = some v ∧ criticalityOf c v = .ok e.criticality

/-- Every listed instance has a node of its own, and every listed edge an edge of its own between
    the nodes of its endpoints. -/
structure Translated {rt : Runtime} (data : List (String × Value)) (s : StackSnapshot rt) : Prop where
  instances : ∃ placed : List StackNode, placed.Nodup ∧ placed ⊆ s.nodes ∧
    List.Forall₂ (Carries c) (listedIn data "instances") placed
  edges : ∃ placed : List StackEdge, placed.Nodup ∧ placed ⊆ s.edges ∧
    List.Forall₂ (Links c) (listedIn data "edges") placed
  endpoints : ∀ e ∈ s.edges, (∃ n ∈ s.nodes, n.nodeId = e.fromNodeId) ∧
    ∃ n ∈ s.nodes, n.nodeId = e.toNodeId

end Translation

/-! ## Entries -/

variable {c : Conversions}

theorem require_eq_ok {fields : List (String × Value)} {name : String} {v : Value} :
    require fields name = .ok v ↔ fields.lookup name = some v := by
  unfold require
  split
  · next w h => simp [h]
  · next h => simp [h]

theorem fieldsOf_eq_ok {v : Value} {fields : List (String × Value)} :
    fieldsOf v = .ok fields ↔ v = .obj fields := by
  unfold fieldsOf
  split
  · simp
  · next hne =>
    simp only [reduceCtorEq, false_iff]
    exact hne fields

theorem lifecycleOf_eq_ok {name : String} {state : ProductInstanceState} :
    lifecycleOf name = .ok state ↔ lifecycleStates.lookup name = some state := by
  unfold lifecycleOf
  split
  · next s h => simp [h]
  · next h => simp [h]

theorem instanceNode_eq_ok {entry : Value} {n : StackNode} (h : instanceNode c entry = .ok n) :
    Carries c entry n ∧ (valueAt entry "product_id").map c.str = some n.nodeId := by
  unfold instanceNode at h
  simp only [bind_eq_ok, require_eq_ok, fieldsOf_eq_ok, lifecycleOf_eq_ok, fromPy_eq_ok,
    StackNode.make_eq_ok] at h
  obtain ⟨fields, rfl, productId, hproduct, lifecycle, hlifecycle, state, hstate, instanceId, hinstance,
    version, hversion, serves, -, integrations, -, hid, -, htype, hattributes, hgiven⟩ := h
  refine ⟨⟨htype, ?_, ?_, lifecycle, hlifecycle, hstate.trans hgiven.symm⟩, ?_⟩
  · rw [hattributes]
    exact hinstance.symm
  · rw [hattributes]
    exact hversion.symm
  · simp only [valueAt, hproduct, Option.map_some, hid]

/-- The nodes stay, and what is added is no product instance. -/
def Extends (nodes nodes' : Dict String StackNode) : Prop :=
  nodes.items ⊆ nodes'.items ∧
    ∀ p ∈ nodes'.items, p.2.nodeType = .productInstance → p ∈ nodes.items

theorem extends_refl (nodes : Dict String StackNode) : Extends nodes nodes :=
  ⟨List.Subset.refl _, fun _ hp _ => hp⟩

theorem Extends.trans {nodes₁ nodes₂ nodes₃ : Dict String StackNode} (h : Extends nodes₁ nodes₂)
    (h' : Extends nodes₂ nodes₃) : Extends nodes₁ nodes₃ :=
  ⟨fun _ hp => h'.1 (h.1 hp), fun p hp hproduct => h.2 p (h'.2 p hp hproduct) hproduct⟩

theorem inferredType_ne (edgeType : EdgeType) (isSource : Bool) :
    inferredType edgeType isSource ≠ .productInstance := by
  unfold inferredType
  split <;> decide

theorem inferNode_extends {edgeType : EdgeType} {isSource : Bool} {endpoint : String}
    {nodes nodes' : Dict String StackNode}
    (h : inferNode edgeType isSource endpoint nodes = .ok nodes') : Extends nodes nodes' := by
  unfold inferNode at h
  split at h
  · cases h
    exact extends_refl nodes
  · next hnot =>
    simp only [bind_eq_ok, fromPy_eq_ok, StackNode.make_eq_ok, pure_eq_ok] at h
    obtain ⟨node, ⟨-, -, htype, -, -⟩, rfl⟩ := h
    have hkey : endpoint ∉ nodes.items.map Prod.fst := by
      rw [← Dict.get?_eq_none_iff]
      simpa [Dict.contains] using hnot
    have hitems : (nodes.set endpoint node).items = nodes.items ++ [(endpoint, node)] := by
      unfold Dict.set
      rw [dif_neg hkey]
    constructor
    · rw [hitems]
      exact List.subset_append_left _ _
    · intro p hp hproduct
      rw [hitems, List.mem_append, List.mem_singleton] at hp
      rcases hp with hp | rfl
      · exact hp
      · rw [htype] at hproduct
        exact absurd hproduct (inferredType_ne edgeType isSource)

theorem listEdge_eq_ok {acc acc' : Dict String StackNode × List StackEdge} {item : Value × Nat}
    (h : listEdge c acc item = .ok acc') :
    Extends acc.1 acc'.1 ∧ ∃ e, acc'.2 = acc.2 ++ [e] ∧ Links c item.1 e := by
  obtain ⟨entry, index⟩ := item
  unfold listEdge at h
  simp only [bind_eq_ok, require_eq_ok, fieldsOf_eq_ok, fromPy_eq_ok, StackEdge.make_eq_ok,
    pure_eq_ok] at h
  obtain ⟨fields, rfl, typeName, htype, edgeType, hedgeType, source, hsource, target, htarget, nodes₁,
    hfirst, nodes₂, hsecond, risk, hrisk, criticality, hcriticality, e, hedge, rfl⟩ := h
  obtain ⟨-, hfrom, hto, hown, hlevel, -, -, -⟩ := hedge
  refine ⟨(inferNode_extends hfirst).trans (inferNode_extends hsecond), e, rfl, ?_⟩
  refine ⟨⟨typeName, htype, hown ▸ hedgeType⟩, ?_, ?_, ⟨risk, hrisk, hlevel ▸ hcriticality⟩⟩
  · simp only [valueAt, hsource, Option.map_some, hfrom]
  · simp only [valueAt, htarget, Option.map_some, hto]

theorem listEdges_eq_ok {items : List (Value × Nat)} {acc acc' : Dict String StackNode × List StackEdge}
    (h : items.foldlM (listEdge c) acc = .ok acc') :
    Extends acc.1 acc'.1 ∧ ∃ placed, acc'.2 = acc.2 ++ placed ∧
      List.Forall₂ (Links c) (items.map Prod.fst) placed := by
  induction items generalizing acc with
  | nil =>
    obtain rfl := pure_eq_ok.mp h
    exact ⟨extends_refl _, [], (List.append_nil _).symm, .nil⟩
  | cons item items ih =>
    rw [List.foldlM_cons, bind_eq_ok] at h
    obtain ⟨mid, hround, hrest⟩ := h
    obtain ⟨hextends, e, hedges, hlinks⟩ := listEdge_eq_ok hround
    obtain ⟨hlater, placed, hplaced, hall⟩ := ih hrest
    refine ⟨hextends.trans hlater, e :: placed, ?_, .cons hlinks hall⟩
    rw [hplaced, hedges, List.append_assoc, List.singleton_append]

/-! ## Nodes by their products -/

theorem product_of_carries {entries : List Value} {placed : List StackNode}
    (h : List.Forall₂ (Carries c) entries placed) {n : StackNode} (hn : n ∈ placed) :
    n.nodeType = .productInstance := by
  induction h with
  | nil => cases hn
  | cons hentry _ ih =>
    rcases List.mem_cons.mp hn with rfl | hn
    · exact hentry.product
    · exact ih hn

theorem nodup_of_length_le {κ α : Type} [DecidableEq κ] {l : List (κ × α)}
    (h : l.length ≤ (Dict.ofList l).items.length) : (l.map Prod.fst).Nodup := by
  have hsub : (Dict.ofList l).items.map Prod.fst ⊆ l.map Prod.fst :=
    fun _ hk => Dict.mem_keys_ofList.mp hk
  have hperm := ((Dict.ofList l).nodup.subperm hsub).perm_of_length_le (by simpa using h)
  exact hperm.nodup_iff.mp (Dict.ofList l).nodup

section Translated

variable {rt : Runtime} {data : List (String × Value)} {s : StackSnapshot rt}

/-- The nodes of the listed instances, under the ids of their products -/
def listedNodes (listed : List StackNode) : Dict String StackNode :=
  Dict.ofList (listed.map (fun n => (n.nodeId, n)))

theorem firstBuildLock_eq_ok (h : firstBuildLock c rt data = .ok s) :
    ∃ listed nodes edges, (listedIn data "instances").mapM (instanceNode c) = .ok listed ∧
      Extends (listedNodes listed) nodes ∧ List.Forall₂ (Links c) (listedIn data "edges") edges ∧
      s.nodes = sortedBy StackNode.nodeId (nodes.items.map Prod.snd) ∧
      s.edges = sortedBy StackEdge.edgeId edges := by
  unfold firstBuildLock at h
  simp only [bind_eq_ok, fromPy_eq_ok] at h
  obtain ⟨instances, hinstances, listed, hlisted, edgeItems, hedgeItems, ⟨nodes, edges⟩, hloop, _, _, _, _,
    _, _, _, _, hbuild⟩ := h
  obtain ⟨hextends, placed, hplaced, hlinks⟩ := listEdges_eq_ok hloop
  obtain ⟨-, -, -, hnodes, hedges⟩ := StackSnapshot.build_eq_ok hbuild
  rw [List.nil_append] at hplaced
  refine ⟨listed, nodes, placed, ?_, hextends, ?_, hnodes, hplaced ▸ hedges⟩
  · simpa [listedIn, hinstances] using hlisted
  · simpa [listedIn, hedgeItems] using hlinks

theorem productIds_nodup_iff {listed : List StackNode}
    (h : (listedIn data "instances").mapM (instanceNode c) = .ok listed) :
    (productIds c data).Nodup ↔ (listed.map StackNode.nodeId).Nodup := by
  have hids : productIds c data = (listed.map StackNode.nodeId).map some := by
    rw [List.map_map]
    exact (map_eq_of_mapM_eq_ok h (fun _ _ n hn => (instanceNode_eq_ok hn).2.symm)).symm
  rw [hids]
  exact List.nodup_map_iff (Option.some_injective _)

theorem keys_listedNodes (listed : List StackNode) :
    (listed.map (fun n => (n.nodeId, n))).map Prod.fst = listed.map StackNode.nodeId := by
  simp

theorem nodup_of_translated (h : firstBuildLock c rt data = .ok s) (htranslated : Translated c data s) :
    (productIds c data).Nodup := by
  obtain ⟨listed, nodes, edges, hlisted, hextends, -, hnodes, -⟩ := firstBuildLock_eq_ok h
  obtain ⟨placed, hnodup, hsub, hcarries⟩ := htranslated.instances
  rw [productIds_nodup_iff hlisted, ← keys_listedNodes]
  apply nodup_of_length_le
  -- The placed nodes are product instances, and these were all there before the edges.
  have hbefore : placed ⊆ (listedNodes listed).items.map Prod.snd := by
    intro n hn
    have hmem := hsub hn
    rw [hnodes, mem_sortedBy, List.mem_map] at hmem
    obtain ⟨p, hp, rfl⟩ := hmem
    exact List.mem_map.mpr ⟨p, hextends.2 p hp (product_of_carries hcarries hn), rfl⟩
  have hle := (hnodup.subperm hbefore).length_le
  rw [← hcarries.length_eq, ← length_of_mapM_eq_ok hlisted] at hle
  simpa [listedNodes] using hle

theorem translated_of_nodup (h : firstBuildLock c rt data = .ok s) (hids : (productIds c data).Nodup) :
    Translated c data s := by
  obtain ⟨listed, nodes, edges, hlisted, hextends, hlinks, hnodes, hedges⟩ := firstBuildLock_eq_ok h
  rw [productIds_nodup_iff hlisted] at hids
  have hitems : (listedNodes listed).items = listed.map (fun n => (n.nodeId, n)) :=
    Dict.items_ofList_of_nodup (by rwa [keys_listedNodes])
  refine ⟨⟨listed, hids.of_map _, ?_, ?_⟩, ⟨edges, ?_, ?_, hlinks⟩, s.graphValid.endpoints⟩
  · intro n hn
    rw [hnodes, mem_sortedBy, List.mem_map]
    refine ⟨(n.nodeId, n), hextends.1 ?_, rfl⟩
    rw [hitems]
    exact List.mem_map.mpr ⟨n, hn, rfl⟩
  · exact (mapM_eq_ok.mp hlisted).imp (fun _ _ hn => (instanceNode_eq_ok hn).1)
  · -- The ids of the edges of a snapshot are distinct.
    have hkeyed := s.graphValid.edgeIds
    rw [hedges] at hkeyed
    exact (sortedBy_perm _ _).nodup_iff.mp (hkeyed.of_map _)
  · intro e he
    rw [hedges, mem_sortedBy]
    exact he

/-- A compact lock that is translated keeps every instance and every edge exactly when its products
    are distinct. -/
theorem firstBuildLock_complete (h : firstBuildLock c rt data = .ok s) :
    Translated c data s ↔ (productIds c data).Nodup :=
  ⟨nodup_of_translated h, translated_of_nodup h⟩

end Translated

/-! ## Locks with one and two instances of a product -/

namespace LockSample

def listedInstance (instanceId productId : String) : Value :=
  .obj [("instance_id", .str instanceId), ("product_id", .str productId), ("lifecycle", .str "active"),
    ("version", .str "v1"), ("serves", .strs ["chat"]), ("integrations", .strs [])]

def lock (instances : List Value) : List (String × Value) :=
  [("schema_version", .str "sira.ai/v1"), ("organization_id", .str "org_consultco"),
    ("snapshot", .int 1), ("instances", .seq instances),
    ("edges", .seq [.obj [("from", .str "chat"), ("type", .str "fulfilled_by"), ("to", .str "slack"),
      ("criticality", .str "high")]])]

def distinct : List (String × Value) :=
  lock [listedInstance "inst_slack" "slack", listedInstance "inst_zoom" "zoom"]

/-- Two instances of one product -/
def repeated : List (String × Value) :=
  lock [listedInstance "inst_slack_a" "slack", listedInstance "inst_slack_b" "slack"]

theorem distinct_isOk : (firstBuildLock .plain .ascii distinct).isOk = true := by
  decide +kernel

theorem repeated_isOk : (firstBuildLock .plain .ascii repeated).isOk = true := by
  decide +kernel

end LockSample

open LockSample in
theorem firstBuildLock_complete_sample :
    ∃ s, firstBuildLock .plain .ascii distinct = .ok s ∧
      (Translated .plain distinct s ↔ (productIds .plain distinct).Nodup) := by
  obtain ⟨s, hs⟩ := exists_of_isOk distinct_isOk
  exact ⟨s, hs, firstBuildLock_complete hs⟩

open LockSample in
/-- The second instance of a product takes the place of the first. -/
theorem repeated_product_overwritten :
    ¬ ∀ (c : Conversions) (rt : Runtime) (data : List (String × Value)) (s : StackSnapshot rt),
      firstBuildLock c rt data = .ok s → Translated c data s := by
  intro h
  obtain ⟨s, hs⟩ := exists_of_isOk repeated_isOk
  have hids := nodup_of_translated hs (h _ _ _ _ hs)
  revert hids
  decide

end Stackfile
