-- SUMMARY: How competing assertions of buyers are settled: one value for each field, whose rank is the highest unless an explicit decision names a lower one.
import SiraSeil.DecisionEngine.Models
import SiraSeil.Domain.Digests

/-!
# Actor conflicts

`_resolve_actor_conflicts` and `_field_owner_roles` of
`decision_engine/graph_v1_fixtures.py`. Facts on one field with one value are all
kept. Where the values differ, the facts of the highest rank decide if they agree, and
otherwise the owner of the field does, by an explicit decision in the purchase brief.
The decision is looked up among all facts of the field, not among those that tie.
-/

namespace DecisionEngine

open Domain Sorting Raising

/-! ## The purchase brief -/

/-- `str(value)`, where `render` is the text of a value that is no string -/
def strOf (render : Value → String) : Value → String
  | .atom (.str text) => text
  | value => render value

/-- `str(item.get(key, ""))` -/
def textAt (render : Value → String) (key : String) (item : List (String × Value)) : String :=
  strOf render ((item.lookup key).getD (.str ""))

/-- `item[key]` -/
def itemAt (key : String) : Value → Py Value
  | .obj fields =>
    match fields.lookup key with
    | some value => .ok value
    | none => .error (.key key)
  | _ => .error (.value "indices must be integers or slices")

/-- `*value` -/
def spread : Value → Py (List Value)
  | .seq items => .ok items
  | .obj fields => .ok (fields.map (fun field => .str field.1))
  | .atom (.str text) => .ok (text.toList.map (fun c => .str (String.singleton c)))
  | .atom _ => .error (.value "value after * must be an iterable")

/-- One entry of `explicit_by_field` -/
def addExplicit (render : Value → String) (explicit : List (String × List (String × Value))) :
    Value → Py (List (String × List (String × Value)))
  | .obj item => do
    let field := textAt render "field" item
    demand (field != "" && (explicit.lookup field).isNone)
      "actor conflict resolutions require unique fields"
    return explicit ++ [(field, item)]
  | _ => .error (.domainValidation "actor conflict resolution must be an object")

/-- `explicit_by_field` -/
def explicitByField (render : Value → String) (brief : List (String × Value)) :
    Py (List (String × List (String × Value))) :=
  match brief.lookup "actor_conflict_resolutions" with
  | none => .ok []
  | some (.seq items) => items.foldlM (addExplicit render) []
  | some _ => .error (.domainValidation "actor_conflict_resolutions must be an array")

/-- One entry of `owners` -/
def addOwner (render : Value → String) (owners : List (String × String)) (item : Value) :
    Py (List (String × String)) := do
  let field ← itemAt "field" item
  let role ← itemAt "owner_role" item
  match owners.lookup (strOf render field) with
  | none => return owners ++ [(strOf render field, strOf render role)]
  | some previous =>
    demand (previous == strOf render role)
      ("purchase brief has conflicting owners for " ++ strOf render field)
    return owners

/-- `_field_owner_roles` -/
def fieldOwnerRoles (render : Value → String) (brief : List (String × Value)) :
    Py (List (String × String)) := do
  let gates ← spread (← itemAt "hard_gates" (.obj brief))
  let preferences ← spread (← itemAt "preferences" (.obj brief))
  (gates ++ preferences).foldlM (addOwner render) []

/-! ## One field -/

/-- What settles a conflict -/
structure Ruling where
  chosen : FrozenFact
  strategy : ConflictStrategy
  decidedByRole : String
  reason : String

/-- What is kept of the facts on a field, and the record of their conflict -/
structure FieldOutcome where
  kept : List FrozenFact
  resolution : Option ActorConflictResolution

def ActorConflictResolution.new (data : ActorConflictResolutionData) : Py ActorConflictResolution :=
  match h : data.postInit with
  | .ok () => .ok ⟨data, h⟩
  | .error e => .error e

section Resolution

variable (rt : Runtime) (render : Value → String)

/-- `len({content_hash(fact.value) for fact in facts}) == 1` -/
def agree (facts : List FrozenFact) : Py Bool := do
  let hashes ← facts.mapM (fun fact => contentHash rt fact.value.toValue)
  return hashes.dedup.length == 1

/-- `sorted(field_facts, key=lambda item: (-item.authority_rank, item.fact_id))` -/
def ranked (facts : List FrozenFact) : List FrozenFact :=
  sortedBy (fun (fact : FrozenFact) => toLex (-(fact.authorityRank : Int), fact.factId)) facts

/-- The fact that a decision selects -/
def namedFact (decision : List (String × Value)) (facts : List FrozenFact) : Option FrozenFact :=
  facts.find? (fun fact => fact.factId == textAt render "selected_fact_id" decision)

/-- The explicit decision of the owner of a field -/
def ownerDecision (explicit : List (String × List (String × Value))) (owners : List (String × String))
    (field : String) (facts : List FrozenFact) : Py Ruling := do
  match explicit.lookup field with
  | none =>
    throw (.domainValidation ("unresolved equal-authority actor conflict for " ++ field))
  | some decision =>
    let decidedByRole := textAt render "decided_by_role" decision
    let owner := owners.lookup field
    demand (owner == some decidedByRole)
      ("actor conflict for " ++ field ++ " requires decision by " ++
        ((owner.filter (· ≠ "")).getD "declared field owner"))
    match namedFact render decision facts with
    | none => throw (.domainValidation ("actor conflict for " ++ field ++ " selected an unknown fact"))
    | some chosen =>
      let reason := strip (textAt render "reason" decision)
      demand (reason != "") ("actor conflict for " ++ field ++ " requires a decision reason")
      return ⟨chosen, .explicitOwnerDecision, decidedByRole, reason⟩

/-- The body of the loop over the fields -/
def resolveField (explicit : List (String × List (String × Value))) (owners : List (String × String))
    (field : String) (facts : List FrozenFact) : Py FieldOutcome := do
  if ← agree rt facts then return ⟨facts, none⟩
  match ranked facts with
  | [] => return ⟨facts, none⟩ -- a field is one of some fact
  | first :: rest =>
    let highest := (first :: rest).filter (fun fact => fact.authorityRank == first.authorityRank)
    let ruling ←
      if ← agree rt highest then
        pure ⟨first, .authorityPrecedence, first.assertedByRole,
          "Unique highest-authority assertion controls this field."⟩
      else ownerDecision render explicit owners field facts
    let resolution ← ActorConflictResolution.new {
      field := field
      factIds := .of (facts.map (·.factId))
      selectedFactId := ruling.chosen.factId
      selectedRole := ruling.chosen.assertedByRole
      decidedByRole := ruling.decidedByRole
      strategy := ruling.strategy
      reason := ruling.reason }
    return ⟨[ruling.chosen], some resolution⟩

/-- The facts on a field -/
def factsOn (facts : List FrozenFact) (field : String) : List FrozenFact :=
  facts.filter (fun fact => fact.field == field)

/-- `_resolve_actor_conflicts` -/
def resolveActorConflicts (facts : List FrozenFact) (brief : List (String × Value)) :
    Py (List FrozenFact × List ActorConflictResolution) := do
  let explicit ← explicitByField render brief
  let owners ← fieldOwnerRoles render brief
  let outcomes ← (sortedSet (facts.map (·.field))).mapM (fun field =>
    resolveField rt render explicit owners field (factsOn facts field))
  let resolutions := outcomes.filterMap (·.resolution)
  let unexpected := sortedSet ((explicit.map (·.1)).filter (fun field =>
    !(resolutions.map (·.field)).contains field))
  if unexpected ≠ [] then
    throw (.domainValidation ("actor conflict resolutions reference non-conflicting fields: " ++
      String.intercalate ", " unexpected))
  return (sortedBy (·.factId) (outcomes.flatMap (·.kept)), sortedBy (·.field) resolutions)

end Resolution

/-! ## Agreement and rank -/

/-- The assertions have one value, as far as hashes tell. -/
def Alike (rt : Runtime) (facts : List FrozenFact) : Prop :=
  ∀ f ∈ facts, ∀ g ∈ facts, rt.hexdigest f.value.toValue = rt.hexdigest g.value.toValue

/-- No assertion has a higher rank. -/
def Highest (facts : List FrozenFact) (f : FrozenFact) : Prop :=
  f ∈ facts ∧ ∀ g ∈ facts, g.authorityRank ≤ f.authorityRank

/-- The assertions of the highest rank have one value. -/
def HighestAlike (rt : Runtime) (facts : List FrozenFact) : Prop :=
  ∀ f g, Highest facts f → Highest facts g →
    rt.hexdigest f.value.toValue = rt.hexdigest g.value.toValue

section

variable {rt : Runtime} {facts facts' : List FrozenFact}

theorem dedup_length_eq_one {α : Type*} [DecidableEq α] {l : List α} (hne : l ≠ []) :
    l.dedup.length = 1 ↔ ∀ a ∈ l, ∀ b ∈ l, a = b := by
  constructor
  · intro h a ha b hb
    obtain ⟨c, hc⟩ := List.length_eq_one_iff.mp h
    rw [← List.mem_dedup, hc, List.mem_singleton] at ha hb
    rw [ha, hb]
  · intro h
    cases hl : l.dedup with
    | nil =>
      obtain ⟨a, ha⟩ := List.exists_mem_of_ne_nil l hne
      rw [← List.mem_dedup, hl] at ha
      cases ha
    | cons a rest =>
      cases rest with
      | nil => rfl
      | cons b rest =>
        have hnodup := l.nodup_dedup
        have ha : a ∈ l := List.mem_dedup.mp (by simp [hl])
        have hb : b ∈ l := List.mem_dedup.mp (by simp [hl])
        rw [hl] at hnodup
        simp [h a ha b hb] at hnodup

theorem agree_eq_ok {b : Bool} (hne : facts ≠ []) :
    agree rt facts = .ok b ↔
      (∀ f ∈ facts, f.value.toValue.Canonical) ∧ (b = true ↔ Alike rt facts) := by
  have hhashes : ∀ hashes, facts.mapM (fun fact => contentHash rt fact.value.toValue) = .ok hashes ↔
      (∀ f ∈ facts, f.value.toValue.Canonical) ∧
        hashes = facts.map (fun f => "sha256:" ++ rt.hexdigest f.value.toValue) := by
    intro hashes
    constructor
    · intro h
      refine ⟨fun f hf => ?_, ?_⟩
      · obtain ⟨hash, -, hhash⟩ := exists_of_mapM_eq_ok h hf
        exact (contentHash_eq_ok.mp hhash).1
      · have hmap : hashes.map id = facts.map (fun f => "sha256:" ++ rt.hexdigest f.value.toValue) :=
          map_eq_of_mapM_eq_ok h (fun f _ hash hhash => (contentHash_eq_ok.mp hhash).2)
        simpa using hmap
    · rintro ⟨hcanonical, rfl⟩
      rw [mapM_eq_ok, List.forall₂_map_right_iff, List.forall₂_same]
      exact fun f hf => contentHash_eq_ok.mpr ⟨hcanonical f hf, rfl⟩
  have hone : (facts.map (fun f => "sha256:" ++ rt.hexdigest f.value.toValue)).dedup.length = 1 ↔
      Alike rt facts := by
    rw [dedup_length_eq_one (by simpa using hne)]
    simp [Alike]
  unfold agree
  rw [bind_eq_ok]
  simp only [hhashes, pure_eq_ok]
  constructor
  · rintro ⟨hashes, ⟨hcanonical, rfl⟩, rfl⟩
    exact ⟨hcanonical, by simp [hone]⟩
  · rintro ⟨hcanonical, hb⟩
    refine ⟨_, ⟨hcanonical, rfl⟩, ?_⟩
    rw [Bool.eq_iff_iff, hb]
    simp [hone]

theorem Alike.of_subset (h : Alike rt facts) (hsub : facts' ⊆ facts) : Alike rt facts' :=
  fun f hf g hg => h f (hsub hf) g (hsub hg)

theorem agree_perm {b : Bool} (hp : facts.Perm facts') (h : agree rt facts = .ok b) :
    agree rt facts' = .ok b := by
  by_cases hne : facts = []
  · subst hne
    rw [List.nil_perm.mp hp]
    exact h
  · have hne' : facts' ≠ [] := fun hnil => hne (List.perm_nil.mp (hnil ▸ hp))
    obtain ⟨hcanonical, hb⟩ := (agree_eq_ok hne).mp h
    refine (agree_eq_ok hne').mpr ⟨fun f hf => hcanonical f (hp.mem_iff.mpr hf), hb.trans ?_⟩
    exact ⟨fun halike => halike.of_subset hp.symm.subset, fun halike => halike.of_subset hp.subset⟩

theorem find?_key_perm {α κ : Type*} [BEq κ] [LawfulBEq κ] {key : α → κ} {l l' : List α} {k : κ}
    (hkey : KeyOn key l) (hp : l.Perm l') :
    l.find? (fun a => key a == k) = l'.find? (fun a => key a == k) := by
  cases hfind : l'.find? (fun a => key a == k) with
  | none =>
    rw [List.find?_eq_none] at hfind ⊢
    exact fun a ha => hfind a (hp.mem_iff.mp ha)
  | some a =>
    have ha := hp.mem_iff.mpr (List.mem_of_find?_eq_some hfind)
    have hk := List.find?_some hfind
    cases hfind' : l.find? (fun a => key a == k) with
    | none =>
      exact absurd hk (List.find?_eq_none.mp hfind' a ha)
    | some b =>
      have hkb := List.find?_some hfind'
      rw [beq_iff_eq] at hk hkb
      rw [hkey b (List.mem_of_find?_eq_some hfind') a ha (hkb.trans hk.symm)]

theorem ranked_perm (hkey : KeyOn (fun (f : FrozenFact) => f.factId) facts) (hp : facts.Perm facts') :
    ranked facts = ranked facts' := by
  refine sortedBy_congr_perm hp (fun f hf g hg h => hkey f hf g hg ?_)
  exact congrArg (fun key => (ofLex key).2) h

theorem highest_of_ranked {first : FrozenFact} {rest : List FrozenFact}
    (h : ranked facts = first :: rest) : Highest facts first := by
  have hmem : ∀ g, g ∈ facts ↔ g ∈ first :: rest := by
    intro g
    rw [← h]
    exact mem_sortedBy.symm
  refine ⟨(hmem first).mpr List.mem_cons_self, fun g hg => ?_⟩
  rcases List.mem_cons.mp ((hmem g).mp hg) with rfl | hrest
  · exact le_refl _
  · have hsorted := sortedBy_pairwise
      (fun (fact : FrozenFact) => toLex (-(fact.authorityRank : Int), fact.factId)) facts
    rw [show sortedBy _ facts = first :: rest from h, List.pairwise_cons] at hsorted
    rcases Prod.Lex.le_iff.mp (hsorted.1 g hrest) with hlt | ⟨heq, -⟩
    · have hlt : -(first.authorityRank : Int) < -(g.authorityRank : Int) := hlt
      omega
    · have heq : -(first.authorityRank : Int) = -(g.authorityRank : Int) := heq
      omega

theorem mem_highest_iff {first : FrozenFact} {rest : List FrozenFact}
    (h : ranked facts = first :: rest) {f : FrozenFact} :
    f ∈ (first :: rest).filter (fun fact => fact.authorityRank == first.authorityRank) ↔
      Highest facts f := by
  have hfirst := highest_of_ranked h
  rw [List.mem_filter, ← h, ranked, mem_sortedBy, beq_iff_eq]
  constructor
  · rintro ⟨hf, hrank⟩
    exact ⟨hf, fun g hg => hrank ▸ hfirst.2 g hg⟩
  · rintro ⟨hf, hhigh⟩
    exact ⟨hf, le_antisymm (hfirst.2 f hf) (hhigh first hfirst.1)⟩

/-! ## The outcome for a field -/

variable {render : Value → String} {explicit : List (String × List (String × Value))}
  {owners : List (String × String)} {field : String}

/-- The decision of the owner of a field selects a fact. -/
structure OwnerDecides (render : Value → String) (explicit : List (String × List (String × Value)))
    (owners : List (String × String)) (field : String) (facts : List FrozenFact)
    (decidedByRole : String) (chosen : FrozenFact) : Prop where
  decision : ∃ decision, explicit.lookup field = some decision ∧
    decidedByRole = textAt render "decided_by_role" decision ∧
    namedFact render decision facts = some chosen
  owner : owners.lookup field = some decidedByRole

/-- A conflict on a field is settled by `chosen`, as `r` records. -/
structure SettledBy (rt : Runtime) (render : Value → String)
    (explicit : List (String × List (String × Value))) (owners : List (String × String))
    (field : String) (facts : List FrozenFact) (chosen : FrozenFact)
    (r : ActorConflictResolution) : Prop where
  mem : chosen ∈ facts
  onField : r.field = field
  competing : r.factIds = .of (facts.map (·.factId))
  selected : r.selectedFactId = chosen.factId
  ruling : r.strategy = .authorityPrecedence ∧ HighestAlike rt facts ∧ Highest facts chosen ∨
    r.strategy = .explicitOwnerDecision ∧ ¬ HighestAlike rt facts ∧
      OwnerDecides render explicit owners field facts r.decidedByRole chosen

theorem ActorConflictResolution.new_eq_ok {data : ActorConflictResolutionData}
    {r : ActorConflictResolution} (h : ActorConflictResolution.new data = .ok r) :
    r.toActorConflictResolutionData = data := by
  unfold ActorConflictResolution.new at h
  split at h
  · cases h
    rfl
  · cases h

theorem ownerDecision_eq_ok {ruling : Ruling}
    (h : ownerDecision render explicit owners field facts = .ok ruling) :
    ruling.strategy = .explicitOwnerDecision ∧
      OwnerDecides render explicit owners field facts ruling.decidedByRole ruling.chosen := by
  unfold ownerDecision at h
  split at h
  · cases h
  · next decision hdecision =>
    obtain ⟨howner, h⟩ := check_bind_eq_ok.mp h
    rw [demand_eq_ok, beq_iff_eq] at howner
    split at h
    · cases h
    · next chosen hchosen =>
      obtain ⟨-, h⟩ := check_bind_eq_ok.mp h
      cases h
      exact ⟨rfl, ⟨decision, hdecision, rfl, hchosen⟩, howner⟩

theorem namedFact_mem {decision : List (String × Value)} {chosen : FrozenFact}
    (h : namedFact render decision facts = some chosen) : chosen ∈ facts :=
  List.mem_of_find?_eq_some h

theorem resolveField_eq_ok {outcome : FieldOutcome} (hne : facts ≠ [])
    (h : resolveField rt render explicit owners field facts = .ok outcome) :
    Alike rt facts ∧ outcome = ⟨facts, none⟩ ∨
      ¬ Alike rt facts ∧ ∃ chosen r, outcome = ⟨[chosen], some r⟩ ∧
        SettledBy rt render explicit owners field facts chosen r := by
  unfold resolveField at h
  obtain ⟨agreed, hagreed, h⟩ := bind_eq_ok.mp h
  obtain ⟨-, hagreed⟩ := (agree_eq_ok hne).mp hagreed
  cases agreed with
  | true =>
    simp only [↓reduceIte] at h
    cases h
    exact .inl ⟨hagreed.mp rfl, rfl⟩
  | false =>
    refine .inr ⟨fun halike => by simpa using hagreed.mpr halike, ?_⟩
    simp only [Bool.false_eq_true, ↓reduceIte, pure_bind] at h
    split at h
    · next hranked =>
      exact absurd (sortedBy_eq_nil.mp hranked) hne
    · next first rest hranked =>
      have hhighest : HighestAlike rt facts ↔ Alike rt ((first :: rest).filter
          (fun fact => fact.authorityRank == first.authorityRank)) := by
        simp only [HighestAlike, Alike, mem_highest_iff hranked]
        exact ⟨fun hall f hf g hg => hall f g hf hg, fun hall f g hf hg => hall f hf g hg⟩
      have hfirst := highest_of_ranked hranked
      have hsome : (first :: rest).filter
          (fun fact => fact.authorityRank == first.authorityRank) ≠ [] :=
        List.ne_nil_of_mem ((mem_highest_iff hranked).mpr hfirst)
      obtain ⟨unique, hunique, h⟩ := bind_eq_ok.mp h
      obtain ⟨-, hunique⟩ := (agree_eq_ok hsome).mp hunique
      cases unique with
      | true =>
        simp only [↓reduceIte] at h
        obtain ⟨r, hr, h⟩ := bind_eq_ok.mp h
        cases h
        have hdata := ActorConflictResolution.new_eq_ok hr
        refine ⟨first, r, rfl, hfirst.1, ?_, ?_, ?_, .inl ⟨?_, ?_, hfirst⟩⟩
        · rw [hdata]
        · rw [hdata]
        · rw [hdata]
        · rw [hdata]
        · exact hhighest.mpr (hunique.mp rfl)
      | false =>
        simp only [Bool.false_eq_true, ↓reduceIte] at h
        obtain ⟨ruling, hruling, h⟩ := bind_eq_ok.mp h
        obtain ⟨hstrategy, hdecides⟩ := ownerDecision_eq_ok hruling
        obtain ⟨r, hr, h⟩ := bind_eq_ok.mp h
        cases h
        have hdata := ActorConflictResolution.new_eq_ok hr
        obtain ⟨decision, -, -, hnamed⟩ := hdecides.decision
        refine ⟨ruling.chosen, r, rfl, namedFact_mem hnamed, ?_, ?_, ?_, .inr ⟨?_, ?_, ?_⟩⟩
        · rw [hdata]
        · rw [hdata]
        · rw [hdata]
        · rw [hdata]
          exact hstrategy
        · exact fun halike => by simpa using hunique.mpr (hhighest.mp halike)
        · rw [hdata]
          exact hdecides

/-- The same facts are kept in some order, with the same record. -/
def FieldOutcome.Reorders (outcome outcome' : FieldOutcome) : Prop :=
  outcome.kept.Perm outcome'.kept ∧ outcome.resolution = outcome'.resolution

theorem FieldOutcome.reorders_all {outcomes outcomes' : List FieldOutcome}
    (h : List.Forall₂ FieldOutcome.Reorders outcomes outcomes') :
    (outcomes.flatMap (·.kept)).Perm (outcomes'.flatMap (·.kept)) ∧
      outcomes.filterMap (·.resolution) = outcomes'.filterMap (·.resolution) := by
  induction h with
  | nil => exact ⟨.refl _, rfl⟩
  | cons hab _ ih =>
    obtain ⟨hkept, hrecord⟩ := hab
    constructor
    · simp only [List.flatMap_cons]
      exact hkept.append ih.1
    · simp only [List.filterMap_cons, hrecord, ih.2]

theorem resolveField_perm {outcome : FieldOutcome}
    (hkey : KeyOn (fun (f : FrozenFact) => f.factId) facts) (hp : facts.Perm facts')
    (h : resolveField rt render explicit owners field facts = .ok outcome) :
    ∃ outcome', resolveField rt render explicit owners field facts' = .ok outcome' ∧
      outcome.Reorders outcome' := by
  have hnamed : ∀ decision, namedFact render decision facts = namedFact render decision facts' :=
    fun decision => find?_key_perm hkey hp
  have howner : ownerDecision render explicit owners field facts =
      ownerDecision render explicit owners field facts' := by
    unfold ownerDecision
    simp only [hnamed]
  have hids : SortedTuple.of (facts.map (·.factId)) = .of (facts'.map (·.factId)) := by
    refine SortedTuple.ext_mem (fun id => ?_)
    rw [SortedTuple.mem_items_of, SortedTuple.mem_items_of, (hp.map _).mem_iff]
  unfold resolveField at h ⊢
  obtain ⟨agreed, hagreed, h⟩ := bind_eq_ok.mp h
  rw [agree_perm hp hagreed, ok_bind]
  cases agreed with
  | true =>
    cases h
    exact ⟨_, rfl, hp, rfl⟩
  | false =>
    rw [← ranked_perm hkey hp, ← howner, ← hids]
    cases hranked : ranked facts with
    | nil =>
      rw [hranked] at h
      cases h
      exact ⟨_, rfl, hp, rfl⟩
    | cons first rest =>
      rw [hranked] at h
      exact ⟨outcome, h, .refl _, rfl⟩

/-! ## All fields -/

variable {brief : List (String × Value)} {selected : List FrozenFact}
  {resolutions : List ActorConflictResolution}

theorem factsOn_eq (facts : List FrozenFact) (field : String) :
    factsOn facts field = facts.filter (fun fact => fact.field = field) := by
  simp [factsOn, beq_eq_decide]

@[simp] theorem mem_factsOn {f : FrozenFact} : f ∈ factsOn facts field ↔ f ∈ facts ∧ f.field = field := by
  simp [factsOn]

theorem factsOn_ne_nil (h : field ∈ facts.map (·.field)) : factsOn facts field ≠ [] := by
  obtain ⟨f, hf, hfield⟩ := List.mem_map.mp h
  exact List.ne_nil_of_mem ((mem_factsOn).mpr ⟨hf, hfield⟩)

/-- The tables of the brief, and the outcomes of the fields in their order -/
structure Resolved (rt : Runtime) (render : Value → String) (facts : List FrozenFact)
    (brief : List (String × Value)) (selected : List FrozenFact)
    (resolutions : List ActorConflictResolution) (explicit : List (String × List (String × Value)))
    (owners : List (String × String)) (outcomes : List FieldOutcome) : Prop where
  decisions : explicitByField render brief = .ok explicit
  roles : fieldOwnerRoles render brief = .ok owners
  loop : (sortedSet (facts.map (·.field))).mapM (fun field =>
    resolveField rt render explicit owners field (factsOn facts field)) = .ok outcomes
  kept : selected = sortedBy (·.factId) (outcomes.flatMap (·.kept))
  records : resolutions = sortedBy (·.field) (outcomes.filterMap (·.resolution))

theorem resolveActorConflicts_eq_ok
    (h : resolveActorConflicts rt render facts brief = .ok (selected, resolutions)) :
    ∃ explicit owners outcomes,
      Resolved rt render facts brief selected resolutions explicit owners outcomes := by
  unfold resolveActorConflicts at h
  obtain ⟨explicit, hexplicit, h⟩ := bind_eq_ok.mp h
  obtain ⟨owners, howners, h⟩ := bind_eq_ok.mp h
  obtain ⟨outcomes, houtcomes, h⟩ := bind_eq_ok.mp h
  obtain ⟨-, h⟩ := unless_throw_eq_ok.mp h
  cases h
  exact ⟨explicit, owners, outcomes, hexplicit, howners, houtcomes, rfl, rfl⟩

section

variable {outcomes : List FieldOutcome}
  (h : Resolved rt render facts brief selected resolutions explicit owners outcomes)

include h

theorem Resolved.onField (hfield : field ∈ facts.map (·.field)) :
    ∃ outcome, resolveField rt render explicit owners field (factsOn facts field) = .ok outcome ∧
      (factsOn selected field).Perm outcome.kept ∧
      (resolutions.filter (fun r => r.field = field)).Perm outcome.resolution.toList := by
  have hmem : field ∈ sortedSet (facts.map (·.field)) := mem_sortedSet.mpr hfield
  obtain ⟨outcome, -, houtcome⟩ := exists_of_mapM_eq_ok h.loop hmem
  refine ⟨outcome, houtcome, ?_, ?_⟩
  · have hkept := filter_flatMap_of_mapM_eq_ok h.loop (sortedSet_nodup (facts.map (·.field)))
      (fun (outcome : FieldOutcome) => outcome.kept) (fun fact => fact.field) ?_ hmem houtcome
    · rw [factsOn_eq, h.kept, ← hkept]
      exact (sortedBy_perm _ _).filter _
    · intro field hfield outcome houtcome f hf
      rcases resolveField_eq_ok (factsOn_ne_nil (mem_sortedSet.mp hfield)) houtcome with
        ⟨-, rfl⟩ | ⟨-, chosen, r, rfl, hr⟩
      · exact ((mem_factsOn).mp hf).2
      · rw [List.mem_singleton.mp hf]
        exact ((mem_factsOn).mp hr.mem).2
  · have hrecords := filter_flatMap_of_mapM_eq_ok h.loop (sortedSet_nodup (facts.map (·.field)))
      (fun (outcome : FieldOutcome) => outcome.resolution.toList) (fun r => r.field) ?_ hmem
      houtcome
    · rw [h.records, ← hrecords, List.filterMap_eq_flatMap_toList]
      exact (sortedBy_perm _ _).filter _
    · intro field hfield outcome houtcome r hr
      rcases resolveField_eq_ok (factsOn_ne_nil (mem_sortedSet.mp hfield)) houtcome with
        ⟨-, rfl⟩ | ⟨-, chosen, r', rfl, hr'⟩
      · cases hr
      · rw [List.mem_singleton.mp hr]
        exact hr'.onField

theorem Resolved.mem_facts {f : FrozenFact} (hf : f ∈ selected) : f ∈ facts := by
  rw [h.kept, mem_sortedBy] at hf
  obtain ⟨outcome, houtcome, hf⟩ := List.mem_flatMap.mp hf
  obtain ⟨field, hfield, houtcome⟩ := (mem_of_mapM_eq_ok h.loop).mp houtcome
  rcases resolveField_eq_ok (factsOn_ne_nil (mem_sortedSet.mp hfield)) houtcome with
    ⟨-, rfl⟩ | ⟨-, chosen, r, rfl, hr⟩
  · exact ((mem_factsOn).mp hf).1
  · rw [List.mem_singleton.mp hf]
    exact ((mem_factsOn).mp hr.mem).1

theorem Resolved.cases (hfield : field ∈ facts.map (·.field)) :
    Alike rt (factsOn facts field) ∧ (factsOn selected field).Perm (factsOn facts field) ∧
        resolutions.filter (fun r => r.field = field) = [] ∨
      ¬ Alike rt (factsOn facts field) ∧ ∃ chosen r, factsOn selected field = [chosen] ∧
        resolutions.filter (fun r => r.field = field) = [r] ∧
        SettledBy rt render explicit owners field (factsOn facts field) chosen r := by
  obtain ⟨outcome, houtcome, hkept, hrecords⟩ := h.onField hfield
  rcases resolveField_eq_ok (factsOn_ne_nil hfield) houtcome with
    ⟨halike, rfl⟩ | ⟨halike, chosen, r, rfl, hr⟩
  · exact .inl ⟨halike, hkept, List.perm_nil.mp hrecords⟩
  · exact .inr ⟨halike, chosen, r, List.perm_singleton.mp hkept, List.perm_singleton.mp hrecords, hr⟩

theorem Resolved.mem_fields {r : ActorConflictResolution} (hr : r ∈ resolutions) :
    r.field ∈ facts.map (·.field) := by
  rw [h.records, mem_sortedBy] at hr
  obtain ⟨outcome, houtcome, hr⟩ := List.mem_filterMap.mp hr
  obtain ⟨field, hfield, houtcome⟩ := (mem_of_mapM_eq_ok h.loop).mp houtcome
  rcases resolveField_eq_ok (factsOn_ne_nil (mem_sortedSet.mp hfield)) houtcome with
    ⟨-, rfl⟩ | ⟨-, chosen, r', rfl, hr'⟩
  · cases hr
  · cases hr
    rw [hr'.onField]
    exact mem_sortedSet.mp hfield

end

theorem resolveActorConflicts_perm (hkey : KeyOn (fun (f : FrozenFact) => f.factId) facts)
    (hp : facts.Perm facts')
    (h : resolveActorConflicts rt render facts brief = .ok (selected, resolutions)) :
    resolveActorConflicts rt render facts' brief = .ok (selected, resolutions) := by
  obtain ⟨explicit, owners, outcomes, hresolved⟩ := resolveActorConflicts_eq_ok h
  unfold resolveActorConflicts at h ⊢
  rw [hresolved.decisions, hresolved.roles, ok_bind, ok_bind] at h ⊢
  rw [hresolved.loop, ok_bind] at h
  have hfields : sortedSet (facts.map (·.field)) = sortedSet (facts'.map (·.field)) :=
    sortedSet_congr (fun field => (hp.map _).mem_iff)
  have hone : ∀ field ∈ sortedSet (facts.map (·.field)), ∀ outcome,
      resolveField rt render explicit owners field (factsOn facts field) = .ok outcome →
      ∃ outcome', resolveField rt render explicit owners field (factsOn facts' field) =
        .ok outcome' ∧ outcome.Reorders outcome' :=
    fun _ _ _ houtcome => resolveField_perm (hkey.filter _) (hp.filter _) houtcome
  obtain ⟨outcomes', hloop', hrelated⟩ := exists_mapM_forall₂ hresolved.loop hone
  obtain ⟨hkept, hrecords⟩ := FieldOutcome.reorders_all hrelated
  rw [← hfields, hloop', ok_bind]
  have hkeptKey : KeyOn (fun (f : FrozenFact) => f.factId) (outcomes.flatMap (·.kept)) := by
    intro f hf g hg hfg
    refine hkey f (hresolved.mem_facts ?_) g (hresolved.mem_facts ?_) hfg
    · rw [hresolved.kept, mem_sortedBy]
      exact hf
    · rw [hresolved.kept, mem_sortedBy]
      exact hg
  rw [← hrecords, ← sortedBy_congr_perm hkept hkeptKey]
  exact h

/-! ## One value for each field -/

/-- The hashes of the asserted values do not collide. -/
def HeldApart (rt : Runtime) (facts : List FrozenFact) : Prop :=
  ∀ f ∈ facts, ∀ g ∈ facts, rt.hexdigest f.value.toValue = rt.hexdigest g.value.toValue →
    f.value.toValue = g.value.toValue

/-- The assertions have one value. -/
def OneValue (facts : List FrozenFact) : Prop :=
  ∀ f ∈ facts, ∀ g ∈ facts, f.value = g.value

theorem FactValue.toValue_injective {v w : FactValue} (h : v.toValue = w.toValue) : v = w := by
  cases v with
  | tuple xs =>
    cases w with
    | tuple ys =>
      simp only [FactValue.toValue, Value.seq.injEq] at h
      have hstr : Function.Injective Value.str := fun a b hab => by simpa using hab
      exact congrArg FactValue.tuple (List.map_injective_iff.mpr hstr h)
    | _ => simp [FactValue.toValue] at h
  | _ => cases w <;> simp_all [FactValue.toValue]

theorem alike_iff (hfree : HeldApart rt facts) (hsub : facts' ⊆ facts) :
    Alike rt facts' ↔ OneValue facts' := by
  constructor
  · intro h f hf g hg
    exact FactValue.toValue_injective (hfree f (hsub hf) g (hsub hg) (h f hf g hg))
  · intro h f hf g hg
    rw [h f hf g hg]

/-- What a resolution leaves of the facts, and what it records -/
structure Settles (render : Value → String) (facts : List FrozenFact)
    (brief : List (String × Value)) (selected : List FrozenFact)
    (resolutions : List ActorConflictResolution) : Prop where
  oneValue : ∀ field, OneValue (factsOn selected field)
  agreeing : ∀ field, OneValue (factsOn facts field) →
    (factsOn selected field).Perm (factsOn facts field) ∧ ∀ r ∈ resolutions, r.field ≠ field
  conflicting : ∀ field, ¬ OneValue (factsOn facts field) →
    ∃ chosen ∈ factsOn facts field, ∃ r, factsOn selected field = [chosen] ∧
      resolutions.filter (fun r => r.field = field) = [r] ∧ r.selectedFactId = chosen.factId ∧
      ∀ id, id ∈ r.factIds.items ↔ ∃ f ∈ factsOn facts field, f.factId = id
  /-- The owner decides only what the highest ranks leave open. -/
  byOwner : ∀ r ∈ resolutions, r.strategy = .explicitOwnerDecision →
    (∃ f g, Highest (factsOn facts r.field) f ∧ Highest (factsOn facts r.field) g ∧
      f.value ≠ g.value) ∧
    ∃ explicit owners chosen, explicitByField render brief = .ok explicit ∧
      fieldOwnerRoles render brief = .ok owners ∧ chosen.factId = r.selectedFactId ∧
      OwnerDecides render explicit owners r.field (factsOn facts r.field) r.decidedByRole chosen

theorem factsOn_subset (facts : List FrozenFact) (field : String) : factsOn facts field ⊆ facts :=
  fun _ hf => ((mem_factsOn).mp hf).1

theorem factsOn_eq_nil (h : field ∉ facts.map (·.field)) : factsOn facts field = [] := by
  rw [List.eq_nil_iff_forall_not_mem]
  intro f hf
  obtain ⟨hmem, rfl⟩ := (mem_factsOn).mp hf
  exact h (List.mem_map_of_mem hmem)

theorem Resolved.settles {outcomes : List FieldOutcome} (hfree : HeldApart rt facts)
    (h : Resolved rt render facts brief selected resolutions explicit owners outcomes) :
    Settles render facts brief selected resolutions where
  oneValue field := by
    by_cases hfield : field ∈ facts.map (·.field)
    · rcases h.cases hfield with ⟨halike, hkept, -⟩ | ⟨-, chosen, r, hchosen, -, -⟩
      · have hone := (alike_iff hfree (factsOn_subset facts field)).mp halike
        exact fun f hf g hg => hone f (hkept.mem_iff.mp hf) g (hkept.mem_iff.mp hg)
      · rw [hchosen]
        intro f hf g hg
        rw [List.mem_singleton.mp hf, List.mem_singleton.mp hg]
    · intro f hf
      obtain ⟨hmem, rfl⟩ := (mem_factsOn).mp hf
      exact absurd (List.mem_map_of_mem (h.mem_facts hmem)) hfield
  agreeing field hone := by
    by_cases hfield : field ∈ facts.map (·.field)
    · rcases h.cases hfield with ⟨-, hkept, hnone⟩ | ⟨hnot, -⟩
      · refine ⟨hkept, fun r hr hrfield => ?_⟩
        have hr : r ∈ resolutions.filter (fun r => r.field = field) := by
          simp [hr, hrfield]
        rw [hnone] at hr
        cases hr
      · exact absurd ((alike_iff hfree (factsOn_subset facts field)).mpr hone) hnot
    · constructor
      · have hselected : field ∉ selected.map (·.field) := by
          intro hmem
          obtain ⟨f, hf, rfl⟩ := List.mem_map.mp hmem
          exact hfield (List.mem_map_of_mem (h.mem_facts hf))
        rw [factsOn_eq_nil hfield, factsOn_eq_nil hselected]
      · rintro r hr rfl
        exact hfield (h.mem_fields hr)
  conflicting field hnot := by
    have hfield : field ∈ facts.map (·.field) := by
      by_contra hnone
      refine hnot (fun f hf => ?_)
      rw [factsOn_eq_nil hnone] at hf
      cases hf
    rcases h.cases hfield with ⟨halike, -⟩ | ⟨-, chosen, r, hchosen, hrecord, hr⟩
    · exact absurd ((alike_iff hfree (factsOn_subset facts field)).mp halike) hnot
    · refine ⟨chosen, hr.mem, r, hchosen, hrecord, hr.selected, fun id => ?_⟩
      rw [hr.competing, SortedTuple.mem_items_of, List.mem_map]
  byOwner r hr hstrategy := by
    rcases h.cases (h.mem_fields hr) with ⟨-, -, hnone⟩ | ⟨-, chosen, r', -, hrecord, hr'⟩
    · have hmem : r ∈ resolutions.filter (fun r' => r'.field = r.field) := by simp [hr]
      rw [hnone] at hmem
      cases hmem
    · have hmem : r ∈ resolutions.filter (fun r' => r'.field = r.field) := by simp [hr]
      rw [hrecord, List.mem_singleton] at hmem
      subst hmem
      rcases hr'.ruling with ⟨hauthority, -⟩ | ⟨-, hdisagree, hdecides⟩
      · rw [hauthority] at hstrategy
        cases hstrategy
      · refine ⟨?_, explicit, owners, chosen, h.decisions, h.roles, hr'.selected.symm, hdecides⟩
        simp only [HighestAlike, not_forall] at hdisagree
        obtain ⟨f, g, hf, hg, hhash⟩ := hdisagree
        refine ⟨f, g, hf, hg, fun hvalue => hhash ?_⟩
        rw [hvalue]

/-- The resolution settles every field, and does so in any order of the facts whose ids
    identify them. -/
theorem actor_conflicts_settled (hfree : HeldApart rt facts)
    (h : resolveActorConflicts rt render facts brief = .ok (selected, resolutions)) :
    Settles render facts brief selected resolutions ∧
      (KeyOn (fun (f : FrozenFact) => f.factId) facts → ∀ facts', facts.Perm facts' →
        resolveActorConflicts rt render facts' brief = .ok (selected, resolutions)) := by
  obtain ⟨explicit, owners, outcomes, hresolved⟩ := resolveActorConflicts_eq_ok h
  exact ⟨hresolved.settles hfree, fun hkey facts' hp => resolveActorConflicts_perm hkey hp h⟩

/-! ## Ranks -/

/-- The decision on a field whose highest assertions disagree selects one of these. -/
def SelectsHighest (rt : Runtime) (render : Value → String) (facts : List FrozenFact)
    (brief : List (String × Value)) : Prop :=
  ∀ explicit, explicitByField render brief = .ok explicit →
    ∀ field decision chosen, ¬ HighestAlike rt (factsOn facts field) →
      explicit.lookup field = some decision →
      namedFact render decision (factsOn facts field) = some chosen →
      Highest (factsOn facts field) chosen

/-- No fact outranks the one that is kept instead of it exactly when the decisions of the
    owners select among the highest ranks. -/
theorem authority_kept_iff
    (h : resolveActorConflicts rt render facts brief = .ok (selected, resolutions)) :
    (∀ f ∈ selected, ∀ g ∈ facts, g.field = f.field → g ∉ selected →
      g.authorityRank ≤ f.authorityRank) ↔ SelectsHighest rt render facts brief := by
  obtain ⟨explicit, owners, outcomes, hresolved⟩ := resolveActorConflicts_eq_ok h
  constructor
  · intro hkept explicit' hexplicit' field decision chosen hdisagree hdecision hnamed
    obtain rfl : explicit = explicit' := Except.ok.inj (hresolved.decisions.symm.trans hexplicit')
    obtain ⟨hmem, hfield⟩ := (mem_factsOn).mp (namedFact_mem hnamed)
    have hon : field ∈ facts.map (·.field) := List.mem_map.mpr ⟨chosen, hmem, hfield⟩
    rcases hresolved.cases hon with
      ⟨halike, -⟩ | ⟨-, chosen', r, hchosen', -, hr⟩
    · exact absurd (fun f g hf hg => halike f hf.1 g hg.1) hdisagree
    · rcases hr.ruling with ⟨-, halike, -⟩ | ⟨-, -, hdecides⟩
      · exact absurd halike hdisagree
      · obtain ⟨decision', hdecision', -, hnamed'⟩ := hdecides.decision
        obtain rfl : decision = decision' := Option.some.inj (hdecision.symm.trans hdecision')
        obtain rfl : chosen = chosen' := Option.some.inj (hnamed.symm.trans hnamed')
        have hon : ∀ g, g ∈ factsOn selected field ↔ g = chosen := by
          simp [hchosen']
        refine ⟨hr.mem, fun g hg => ?_⟩
        obtain ⟨hg, hgfield⟩ := (mem_factsOn).mp hg
        by_cases hselected : g ∈ selected
        · rw [(hon g).mp ((mem_factsOn).mpr ⟨hselected, hgfield⟩)]
        · exact hkept chosen ((mem_factsOn).mp ((hon chosen).mpr rfl)).1 g hg
            (hgfield.trans hfield.symm) hselected
  · intro hselects f hf g hg hgf hnot
    rcases hresolved.cases (List.mem_map_of_mem (hresolved.mem_facts hf)) with
      ⟨-, hperm, -⟩ | ⟨-, chosen, r, hchosen, -, hr⟩
    · have hg : g ∈ factsOn selected f.field := hperm.mem_iff.mpr ((mem_factsOn).mpr ⟨hg, hgf⟩)
      exact absurd ((mem_factsOn).mp hg).1 hnot
    · have hf : f ∈ factsOn selected f.field := (mem_factsOn).mpr ⟨hf, rfl⟩
      rw [hchosen, List.mem_singleton] at hf
      have hg : g ∈ factsOn facts f.field := (mem_factsOn).mpr ⟨hg, hgf⟩
      rw [hf] at hr hg ⊢
      rcases hr.ruling with ⟨-, -, hhighest⟩ | ⟨-, hdisagree, hdecides⟩
      · exact hhighest.2 g hg
      · obtain ⟨decision, hdecision, -, hnamed⟩ := hdecides.decision
        exact (hselects explicit hresolved.decisions _ decision chosen hdisagree hdecision
          hnamed).2 g hg

end

/-! ## Two owners and a requester -/

namespace Sample

/-- The text of a brief's values that are no strings; here there are none. -/
def rendered : Value → String
  | .atom .null => "None"
  | _ => ""

def trainingAllowed : FrozenFact where
  factId := "bf_training_allowed"
  field := "product.trains_on_customer_data"
  value := .bool true
  isPrivate := true
  version := "1"
  assertedByRole := "security_privacy_owner"
  authorityLevel := "POLICY_OWNER"
  authorityRank := 300

def trainingForbidden : FrozenFact where
  factId := "bf_training_forbidden"
  field := "product.trains_on_customer_data"
  value := .bool false
  isPrivate := true
  version := "1"
  assertedByRole := "legal_owner"
  authorityLevel := "POLICY_OWNER"
  authorityRank := 300

/-- The id of `trainingAllowed` with the other value -/
def trainingRevoked : FrozenFact where
  factId := "bf_training_allowed"
  field := "product.trains_on_customer_data"
  value := .bool false
  isPrivate := true
  version := "2"
  assertedByRole := "security_privacy_owner"
  authorityLevel := "POLICY_OWNER"
  authorityRank := 300

def trainingWished : FrozenFact where
  factId := "bf_training_wished"
  field := "product.trains_on_customer_data"
  value := .bool true
  isPrivate := true
  version := "1"
  assertedByRole := "requester"
  authorityLevel := "REQUESTER"
  authorityRank := 100

/-- The security owner decides for a fact. -/
def briefSelecting (factId : String) : List (String × Value) :=
  [("hard_gates", .seq [.obj [("field", .str "product.trains_on_customer_data"),
      ("owner_role", .str "security_privacy_owner")]]),
    ("preferences", .seq []),
    ("actor_conflict_resolutions", .seq [.obj [("field", .str "product.trains_on_customer_data"),
      ("selected_fact_id", .str factId), ("decided_by_role", .str "security_privacy_owner"),
      ("reason", .str "The security owner reviewed the competing assertions.")]])]

theorem heldApart_of_bools {facts : List FrozenFact} (h : ∀ f ∈ facts, ∃ b, f.value = .bool b) :
    HeldApart .ascii facts := by
  have hapart : Runtime.ascii.hexdigest (.bool true) ≠ Runtime.ascii.hexdigest (.bool false) := by
    rw [Runtime.ascii_eq]
    decide
  intro f hf g hg hhash
  obtain ⟨a, ha⟩ := h f hf
  obtain ⟨b, hb⟩ := h g hg
  rw [ha, hb] at hhash ⊢
  cases a <;> cases b
  · rfl
  · exact absurd hhash.symm hapart
  · exact absurd hhash hapart
  · rfl

end Sample

/-- With one id for two facts, the order of the facts decides which value survives. -/
theorem shared_id_survivor_by_order :
    HeldApart .ascii [Sample.trainingAllowed, Sample.trainingRevoked, Sample.trainingWished] ∧
      ∃ selected resolutions selected' resolutions',
        resolveActorConflicts .ascii Sample.rendered
          [Sample.trainingAllowed, Sample.trainingRevoked, Sample.trainingWished]
          (Sample.briefSelecting "bf_training_allowed") = .ok (selected, resolutions) ∧
        resolveActorConflicts .ascii Sample.rendered
          [Sample.trainingRevoked, Sample.trainingAllowed, Sample.trainingWished]
          (Sample.briefSelecting "bf_training_allowed") = .ok (selected', resolutions') ∧
        selected.map (·.value) = [.bool true] ∧ selected'.map (·.value) = [.bool false] := by
  have hfirst : (resolveActorConflicts .ascii Sample.rendered
      [Sample.trainingAllowed, Sample.trainingRevoked, Sample.trainingWished]
      (Sample.briefSelecting "bf_training_allowed")).toOption.any
      (fun result => result.1.map (·.value) == [.bool true]) = true := by
    rw [Runtime.ascii_eq]
    decide +kernel
  have hsecond : (resolveActorConflicts .ascii Sample.rendered
      [Sample.trainingRevoked, Sample.trainingAllowed, Sample.trainingWished]
      (Sample.briefSelecting "bf_training_allowed")).toOption.any
      (fun result => result.1.map (·.value) == [.bool false]) = true := by
    rw [Runtime.ascii_eq]
    decide +kernel
  obtain ⟨⟨selected, resolutions⟩, hrun, hvalue⟩ := exists_of_toOption_any hfirst
  obtain ⟨⟨selected', resolutions'⟩, hrun', hvalue'⟩ := exists_of_toOption_any hsecond
  refine ⟨Sample.heldApart_of_bools ?_, selected, resolutions, selected', resolutions', hrun, hrun',
    by simpa using hvalue, by simpa using hvalue'⟩
  simp [Sample.trainingAllowed, Sample.trainingRevoked, Sample.trainingWished]

/-- The owner settles a tie between two owners. -/
theorem actor_conflicts_settled_sample :
    HeldApart .ascii [Sample.trainingAllowed, Sample.trainingForbidden, Sample.trainingWished] ∧
      ∃ selected resolutions, resolveActorConflicts .ascii Sample.rendered
          [Sample.trainingAllowed, Sample.trainingForbidden, Sample.trainingWished]
          (Sample.briefSelecting "bf_training_forbidden") = .ok (selected, resolutions) ∧
        Settles Sample.rendered
          [Sample.trainingAllowed, Sample.trainingForbidden, Sample.trainingWished]
          (Sample.briefSelecting "bf_training_forbidden") selected resolutions ∧
        resolveActorConflicts .ascii Sample.rendered
          [Sample.trainingForbidden, Sample.trainingAllowed, Sample.trainingWished]
          (Sample.briefSelecting "bf_training_forbidden") = .ok (selected, resolutions) ∧
        selected.map (·.value) = [.bool false] := by
  have hfree : HeldApart .ascii
      [Sample.trainingAllowed, Sample.trainingForbidden, Sample.trainingWished] :=
    Sample.heldApart_of_bools (by
      simp [Sample.trainingAllowed, Sample.trainingForbidden, Sample.trainingWished])
  have hreturns : (resolveActorConflicts .ascii Sample.rendered
      [Sample.trainingAllowed, Sample.trainingForbidden, Sample.trainingWished]
      (Sample.briefSelecting "bf_training_forbidden")).toOption.any
      (fun result => result.1.map (·.value) == [.bool false]) = true := by
    rw [Runtime.ascii_eq]
    decide
  obtain ⟨⟨selected, resolutions⟩, hrun, hvalue⟩ := exists_of_toOption_any hreturns
  obtain ⟨hsettles, horder⟩ := actor_conflicts_settled hfree hrun
  refine ⟨hfree, selected, resolutions, hrun, hsettles, horder (.of_nodup (by decide)) _ ?_,
    by simpa using hvalue⟩
  exact .swap _ _ _

/-- The owner can select the requester's assertion over those of two owners. -/
theorem owner_decision_inverts_authority :
    ∃ selected resolutions f g, resolveActorConflicts .ascii Sample.rendered
        [Sample.trainingAllowed, Sample.trainingForbidden, Sample.trainingWished]
        (Sample.briefSelecting "bf_training_wished") = .ok (selected, resolutions) ∧
      f ∈ selected ∧
      g ∈ [Sample.trainingAllowed, Sample.trainingForbidden, Sample.trainingWished] ∧
      g.field = f.field ∧ g ∉ selected ∧ f.authorityRank < g.authorityRank := by
  have hreturns : (resolveActorConflicts .ascii Sample.rendered
      [Sample.trainingAllowed, Sample.trainingForbidden, Sample.trainingWished]
      (Sample.briefSelecting "bf_training_wished")).toOption.any
      (fun result => result.1.map (fun f => (f.factId, f.field, f.authorityRank)) ==
        [("bf_training_wished", "product.trains_on_customer_data", 100)]) = true := by
    rw [Runtime.ascii_eq]
    decide
  obtain ⟨⟨selected, resolutions⟩, hrun, hkept⟩ := exists_of_toOption_any hreturns
  rw [beq_iff_eq, List.map_eq_singleton_iff] at hkept
  obtain ⟨f, rfl, hf⟩ := hkept
  simp only [Prod.mk.injEq] at hf
  obtain ⟨hid, hfield, hrank⟩ := hf
  refine ⟨_, resolutions, f, Sample.trainingAllowed, hrun, List.mem_singleton_self f,
    List.mem_cons_self, hfield.symm, ?_, ?_⟩
  · rw [List.mem_singleton]
    rintro rfl
    exact absurd hid (by decide)
  · rw [hrank]
    decide

/-- A decision between the two owners keeps the order of ranks. -/
theorem authority_kept_iff_sample :
    ∃ selected resolutions, resolveActorConflicts .ascii Sample.rendered
        [Sample.trainingAllowed, Sample.trainingForbidden, Sample.trainingWished]
        (Sample.briefSelecting "bf_training_forbidden") = .ok (selected, resolutions) ∧
      ((∀ f ∈ selected,
          ∀ g ∈ [Sample.trainingAllowed, Sample.trainingForbidden, Sample.trainingWished],
            g.field = f.field → g ∉ selected → g.authorityRank ≤ f.authorityRank) ↔
        SelectsHighest .ascii Sample.rendered
          [Sample.trainingAllowed, Sample.trainingForbidden, Sample.trainingWished]
          (Sample.briefSelecting "bf_training_forbidden")) := by
  have hreturns : (resolveActorConflicts .ascii Sample.rendered
      [Sample.trainingAllowed, Sample.trainingForbidden, Sample.trainingWished]
      (Sample.briefSelecting "bf_training_forbidden")).isOk = true := by
    rw [Runtime.ascii_eq]
    decide
  obtain ⟨⟨selected, resolutions⟩, hrun⟩ := exists_of_isOk hreturns
  exact ⟨selected, resolutions, hrun, authority_kept_iff hrun⟩

end DecisionEngine
