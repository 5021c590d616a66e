-- SUMMARY: Reading the graph of a product stack from a JSON document: enumerations with their case normalization, checked constructors, and the snapshot.
import SiraSeil.Stackfile.Models

/-!
# Stackfile documents

The `from_dict` of `stackfile/models.py`. A document is a value whose fields are read by name. A
node here has attributes by name and an edge has an evidence reference that is a text or none; the
code keeps what else stands there.
-/

namespace Stackfile

open Domain Sorting

/-! ## Reading values -/

inductive LockError
  | domain (error : PyError)
  | typeError
  deriving DecidableEq

abbrev Reading (α : Type) := Except LockError α

def fromPy {α : Type} (x : Py α) : Reading α := x.mapError .domain

theorem fromPy_eq_ok {α : Type} {x : Py α} {a : α} : fromPy x = .ok a ↔ x = .ok a :=
  Raising.mapError_eq_ok

/-- The conversions of the language, on what JSON holds -/
structure Conversions where
  /-- `str` -/
  str : Value → String
  /-- `int` -/
  int : Value → Reading Int
  /-- `str.upper` -/
  upper : String → String
  str_str : ∀ s, str (.str s) = s
  int_int : ∀ n, int (.int n) = .ok n

/-- The conversions of ASCII texts and of numbers -/
def Conversions.plain : Conversions where
  str
    | .atom (.str s) => s
    | .atom (.int n) => toString n
    | .atom .null => "None"
    | .atom (.bool b) => if b then "True" else "False"
    | _ => ""
  int
    | .atom (.int n) => .ok n
    | _ => .error .typeError
  upper s := String.ofList (s.toList.map Char.toUpper)
  str_str _ := rfl
  int_int _ := rfl

/-- `data[name]` -/
def require (fields : List (String × Value)) (name : String) : Reading Value :=
  match fields.lookup name with
  | some v => .ok v
  | none => .error (.domain (.key name))

/-- The fields of a mapping -/
def fieldsOf : Value → Reading (List (String × Value))
  | .obj fields => .ok fields
  | _ => .error .typeError

/-- What a loop over `data.get(name, ())` goes through -/
def itemsOf : Option Value → Reading (List Value)
  | none => .ok []
  | some (.seq items) => .ok items
  | some (.obj fields) => .ok (fields.map (fun p => .str p.1))
  | some (.atom (.str s)) => .ok (s.toList.map (fun ch => .str (String.singleton ch)))
  | some (.atom _) => .error .typeError

/-- `bool` -/
def truthy : Value → Bool
  | .atom .null => false
  | .atom (.bool b) => b
  | .atom (.int n) => n ≠ 0
  | .atom (.str s) => s ≠ ""
  | .atom (.datetime _) => true
  | .seq items => !items.isEmpty
  | .obj fields => !fields.isEmpty

/-! ## Enumerations -/

def NodeType.all : List NodeType :=
  [.organization, .businessGoal, .jtbd, .workflow, .capability, .team, .role, .personRef, .product,
    .productVersion, .productInstance, .implementationProject, .offer, .contract, .entitlement,
    .integration, .dataAsset, .policy, .budget, .vendor, .decision, .outcome, .risk]

def EdgeType.all : List EdgeType :=
  [.fulfills, .fulfilledBy, .provides, .requiresCapability, .deployedFor, .requires, .integratesWith,
    .sendsDataTo, .replaces, .overlapsWith, .blocks, .constrainedBy, .ownedBy, .usedBy, .paidBy,
    .provisionedBy, .governedBy, .measuredBy, .renewedBy]

def riskLevels : List StackRisk := [.low, .medium, .high, .critical]

def instanceStates : List ProductInstanceState :=
  [.proposed, .contracted, .provisioned, .deploying, .active, .degraded, .retiring, .cancelled]

section Reading

variable (c : Conversions)

/-- `_enum`: a member by its value, or by its value in upper case -/
def enumOf {α : Type} (members : List α) (value : α → String) (fieldName : String) (v : Value) :
    Py α :=
  let found := match v with
    | .atom (.str s) =>
      (members.find? (fun m => value m = s)).or (members.find? (fun m => value m = c.upper s))
    | _ => none
  match found with
  | some m => .ok m
  | none => .error (.domainValidation ("unsupported " ++ fieldName ++ ": " ++ c.str v))

def nodeTypeOf (v : Value) : Py NodeType := enumOf c NodeType.all NodeType.value "node_type" v

def edgeTypeOf (v : Value) : Py EdgeType := enumOf c EdgeType.all EdgeType.value "edge_type" v

def criticalityOf (v : Value) : Py StackRisk := enumOf c riskLevels StackRisk.value "criticality" v

def instanceStateOf (v : Value) : Py ProductInstanceState :=
  enumOf c instanceStates ProductInstanceState.value "product_instance_state" v

end Reading

/-! ## Checked construction -/

def identifierError {α : Type} (fieldName : String) : Py α :=
  .error (.domainValidation (fieldName ++ " must be a stable non-empty identifier"))

/-- The checks of a node -/
def StackNode.make (nodeId nodeAlias : String) (nodeType : NodeType)
    (attributes : List (String × Value)) (state : Option ProductInstanceState) : Py StackNode :=
  if hid : isId nodeId = true ∧ isId nodeAlias = true then
    if hstaged : nodeType = .productInstance ↔ state.isSome then
      .ok ⟨nodeId, nodeAlias, nodeType, attributes, state, hid, hstaged⟩
    else if nodeType = .productInstance then
      .error (.domainValidation "product_instance nodes require lifecycle state")
    else .error (.domainValidation "only product_instance nodes have lifecycle state")
  else if isId nodeId then identifierError "alias"
  else identifierError "node_id"

/-- The checks of an edge -/
def StackEdge.make (edgeId fromNodeId toNodeId : String) (edgeType : EdgeType)
    (criticality : StackRisk) (hard : Bool) (evidenceRef : Option String) (confidence : String) :
    Py StackEdge :=
  if hid : isId edgeId = true ∧ isId fromNodeId = true ∧ isId toNodeId = true then
    if hproper : fromNodeId ≠ toNodeId then
      if hknown : confidence ∈ confidences then
        .ok ⟨edgeId, fromNodeId, toNodeId, edgeType, criticality, hard, evidenceRef, confidence, hid,
          hproper, hknown⟩
      else .error (.domainValidation "unsupported Stackfile edge confidence")
    else .error (.domainValidation "Stackfile self-edges are prohibited")
  else if ¬ isId edgeId then identifierError "edge_id"
  else if ¬ isId fromNodeId then identifierError "from_node_id"
  else identifierError "to_node_id"

theorem StackNode.make_eq_ok {nodeId nodeAlias : String} {nodeType : NodeType}
    {attributes : List (String × Value)} {state : Option ProductInstanceState} {n : StackNode} :
    StackNode.make nodeId nodeAlias nodeType attributes state = .ok n ↔
      n.nodeId = nodeId ∧ n.nodeAlias = nodeAlias ∧ n.nodeType = nodeType ∧
        n.attributes = attributes ∧ n.productInstanceState = state := by
  constructor
  · intro h
    unfold StackNode.make identifierError at h
    split_ifs at h
    cases h
    simp
  · rintro ⟨rfl, rfl, rfl, rfl, rfl⟩
    unfold StackNode.make
    rw [dif_pos n.identified, dif_pos n.staged]

theorem StackEdge.make_eq_ok {edgeId fromNodeId toNodeId : String} {edgeType : EdgeType}
    {criticality : StackRisk} {hard : Bool} {evidenceRef : Option String} {confidence : String}
    {e : StackEdge} :
    StackEdge.make edgeId fromNodeId toNodeId edgeType criticality hard evidenceRef confidence =
        .ok e ↔
      e.edgeId = edgeId ∧ e.fromNodeId = fromNodeId ∧ e.toNodeId = toNodeId ∧
        e.edgeType = edgeType ∧ e.criticality = criticality ∧ e.hard = hard ∧
        e.evidenceRef = evidenceRef ∧ e.confidence = confidence := by
  constructor
  · intro h
    unfold StackEdge.make identifierError at h
    split_ifs at h
    cases h
    simp
  · rintro ⟨rfl, rfl, rfl, rfl, rfl, rfl, rfl, rfl⟩
    unfold StackEdge.make
    rw [dif_pos e.identified, dif_pos e.proper, dif_pos e.known]

/-! ## Documents -/

section Documents

variable (c : Conversions)

/-- A state that is given -/
def givenState : Option Value → Reading (Option ProductInstanceState)
  | none => .ok none
  | some (.atom .null) => .ok none
  | some v => do
    let state ← fromPy (instanceStateOf c v)
    return some state

def givenReference : Option Value → Reading (Option String)
  | none => .ok none
  | some (.atom .null) => .ok none
  | some (.atom (.str s)) => .ok (some s)
  | some _ => .error .typeError

/-- `StackNode.from_dict` -/
def StackNode.fromDict (data : Value) : Reading StackNode := do
  let fields ← fieldsOf data
  let nodeId ← require fields "node_id"
  let nodeAlias ← require fields "alias"
  let typeName ← require fields "node_type"
  let nodeType ← fromPy (nodeTypeOf c typeName)
  let attributes ← fieldsOf ((fields.lookup "attributes").getD (.obj []))
  let state ← givenState c (fields.lookup "product_instance_state")
  fromPy (StackNode.make (c.str nodeId) (c.str nodeAlias) nodeType attributes state)

/-- `StackEdge.from_dict` -/
def StackEdge.fromDict (data : Value) : Reading StackEdge := do
  let fields ← fieldsOf data
  let edgeId ← require fields "edge_id"
  let fromNodeId ← require fields "from_node_id"
  let toNodeId ← require fields "to_node_id"
  let typeName ← require fields "edge_type"
  let edgeType ← fromPy (edgeTypeOf c typeName)
  let criticality ← fromPy (criticalityOf c ((fields.lookup "criticality").getD (.str "LOW")))
  let hard := truthy ((fields.lookup "hard").getD (.bool false))
  let evidenceRef ← givenReference (fields.lookup "evidence_ref")
  let confidence := c.str ((fields.lookup "confidence").getD (.str "confirmed"))
  fromPy (StackEdge.make (c.str edgeId) (c.str fromNodeId) (c.str toNodeId) edgeType criticality hard
    evidenceRef confidence)

/-- The fields of a stored snapshot -/
def snapshotFields : List String :=
  ["schema_version", "organization_id", "version", "nodes", "edges", "content_hash"]

/-- `StackSnapshot.from_dict` -/
def StackSnapshot.fromDict (rt : Runtime) (data : List (String × Value)) :
    Reading (StackSnapshot rt) := do
  let unknown := (data.map Prod.fst).filter (fun name => name ∉ snapshotFields)
  if unknown ≠ [] then
    throw (.domain (.domainValidation
      ("unknown Stackfile lock fields: " ++ c.str (.strs (sortedBy id unknown)))))
  let schemaVersion ← require data "schema_version"
  let organizationId ← require data "organization_id"
  let versionValue ← require data "version"
  let version ← c.int versionValue
  let nodeItems ← itemsOf (data.lookup "nodes")
  let nodes ← nodeItems.mapM (StackNode.fromDict c)
  let edgeItems ← itemsOf (data.lookup "edges")
  let edges ← edgeItems.mapM (StackEdge.fromDict c)
  fromPy (StackSnapshot.build rt (c.str schemaVersion) (c.str organizationId) version nodes edges
    (c.str ((data.lookup "content_hash").getD (.str ""))))

end Documents

/-! ## Values of members -/

section Members

variable {c : Conversions} {α : Type} {members : List α} {value : α → String}

theorem enumOf_value {fieldName : String} {m : α} (hmem : m ∈ members)
    (hvalue : ∀ a ∈ members, value a = value m → a = m) :
    enumOf c members value fieldName (.str (value m)) = .ok m := by
  have hfind : members.find? (fun a => value a = value m) = some m := by
    cases h : members.find? (fun a => value a = value m) with
    | none =>
      have hnot := List.find?_eq_none.mp h m hmem
      simp at hnot
    | some a =>
      have ha : value a = value m := by simpa using List.find?_some h
      rw [hvalue a (List.mem_of_find?_eq_some h) ha]
  simp [enumOf, hfind]

theorem nodeTypeOf_value (t : NodeType) : nodeTypeOf c (.str t.value) = .ok t :=
  enumOf_value (by cases t <;> decide) (by cases t <;> decide)

theorem edgeTypeOf_value (t : EdgeType) : edgeTypeOf c (.str t.value) = .ok t :=
  enumOf_value (by cases t <;> decide) (by cases t <;> decide)

theorem criticalityOf_value (r : StackRisk) : criticalityOf c (.str r.value) = .ok r :=
  enumOf_value (by cases r <;> decide) (by cases r <;> decide)

theorem instanceStateOf_value (s : ProductInstanceState) :
    instanceStateOf c (.str s.value) = .ok s :=
  enumOf_value (by cases s <;> decide) (by cases s <;> decide)

end Members

end Stackfile
