-- SUMMARY: The dependency closure terminates, lists the needed records with dependencies first, and reports a cycle exactly when one can be reached.
import Mathlib.Logic.Relation
import SiraSeil.Library.Table
import SiraSeil.DecisionEngine.Materials

/-!
# The dependency closure

`Walks` is the traversal of `closure` without a bound on its rounds: a derivation is a run that
ends. The bounded function computes the run, and what the closure returns is read off it by
induction on the derivation.
-/

namespace DecisionEngine

open Domain Sorting Relation

/-! ## Requirements -/

/-- A requirement of a record that one representative alone meets -/
def Requires (representatives : List RawCandidateRecord) (record dependency : RawCandidateRecord) :
    Prop :=
  ∃ id ∈ record.requiredProductIds.items, byProduct representatives id = [dependency]

variable {representatives : List RawCandidateRecord}

variable {id : String} {record : RawCandidateRecord}

theorem mem_of_byProduct (h : byProduct representatives id = [record]) :
    record ∈ representatives ∧ record.productId = id := by
  have hmem : record ∈ byProduct representatives id := h ▸ List.mem_singleton_self record
  simpa [byProduct] using hmem

theorem eq_of_byProduct {other : RawCandidateRecord} (h : byProduct representatives id = [record])
    (hother : other ∈ representatives) (hid : other.productId = id) : other = record := by
  have hmem : other ∈ byProduct representatives id := by
    simpa [byProduct] using ⟨hother, hid⟩
  rw [h] at hmem
  exact List.mem_singleton.mp hmem

/-! ## Runs -/

/-- The traversal of the dependencies of a record, with the path to it as `visiting` -/
inductive Walks (representatives : List RawCandidateRecord) :
    List String → List String → ClosureState → ClosureState → Prop
  | done {visiting : List String} {s : ClosureState} : Walks representatives visiting [] s s
  | missing {visiting ids : List String} {id : String} {s s' : ClosureState}
      (hmatch : byProduct representatives id = [])
      (hrest : Walks representatives visiting ids (s.addIssue "MISSING_REQUIRED_COMPONENT") s') :
      Walks representatives visiting (id :: ids) s s'
  | ambiguous {visiting ids : List String} {id : String} {s s' : ClosureState}
      (hmatch : 1 < (byProduct representatives id).length)
      (hrest : Walks representatives visiting ids (s.addIssue "AMBIGUOUS_REQUIRED_COMPONENT") s') :
      Walks representatives visiting (id :: ids) s s'
  | cyclic {visiting ids : List String} {id : String} {record : RawCandidateRecord}
      {s s' : ClosureState} (hmatch : byProduct representatives id = [record])
      (hpath : record.productId ∈ visiting)
      (hrest : Walks representatives visiting ids (s.addIssue "CYCLIC_COMPONENT_DEPENDENCY") s') :
      Walks representatives visiting (id :: ids) s s'
  | seen {visiting ids : List String} {id : String} {record : RawCandidateRecord}
      {s s' : ClosureState} (hmatch : byProduct representatives id = [record])
      (hpath : record.productId ∉ visiting) (hseen : record.productId ∈ s.visited)
      (hrest : Walks representatives visiting ids s s') :
      Walks representatives visiting (id :: ids) s s'
  | expands {visiting ids : List String} {id : String} {record : RawCandidateRecord}
      {s t s' : ClosureState} (hmatch : byProduct representatives id = [record])
      (hpath : record.productId ∉ visiting) (hnew : record.productId ∉ s.visited)
      (hinner : Walks representatives (record.productId :: visiting)
        record.requiredProductIds.items s t)
      (hrest : Walks representatives visiting ids (t.finish record) s') :
      Walks representatives visiting (id :: ids) s s'

/-- One round of the loop of `visit` -/
def visitDependency (representatives : List RawCandidateRecord) (fuel : Nat)
    (visiting : List String) (s : ClosureState) (dependencyId : String) : ClosureState :=
  match byProduct representatives dependencyId with
  | [] => s.addIssue "MISSING_REQUIRED_COMPONENT"
  | [dependency] => visit representatives fuel visiting dependency s
  | _ => s.addIssue "AMBIGUOUS_REQUIRED_COMPONENT"

theorem visit_succ (fuel : Nat) (visiting : List String) (record : RawCandidateRecord)
    (s : ClosureState) : visit representatives (fuel + 1) visiting record s =
      if record.productId ∈ visiting then s.addIssue "CYCLIC_COMPONENT_DEPENDENCY"
      else if record.productId ∈ s.visited then s
      else (record.requiredProductIds.items.foldl
        (visitDependency representatives fuel (record.productId :: visiting)) s).finish record := rfl

theorem walks_foldl {fuel : Nat} {visiting ids : List String} {s : ClosureState}
    (hroom : representatives.length < fuel + visiting.length) (hnodup : visiting.Nodup)
    (hpath : visiting ⊆ representatives.map (·.productId)) :
    Walks representatives visiting ids s
      (ids.foldl (visitDependency representatives fuel visiting) s) := by
  induction fuel generalizing visiting ids s with
  | zero =>
    have hlength : visiting.length ≤ (representatives.map (·.productId)).length :=
      (List.subperm_of_subset hnodup hpath).length_le
    rw [List.length_map] at hlength
    omega
  | succ fuel ih =>
    induction ids generalizing s with
    | nil => exact .done
    | cons id ids ihIds =>
      rw [List.foldl_cons]
      unfold visitDependency
      split
      · next hmatch => exact .missing hmatch ihIds
      · next record hmatch =>
        rw [visit_succ]
        obtain ⟨hmem, -⟩ := mem_of_byProduct hmatch
        by_cases hcycle : record.productId ∈ visiting
        · rw [if_pos hcycle]
          exact .cyclic hmatch hcycle ihIds
        · rw [if_neg hcycle]
          by_cases hseen : record.productId ∈ s.visited
          · rw [if_pos hseen]
            exact .seen hmatch hcycle hseen ihIds
          · rw [if_neg hseen]
            refine .expands hmatch hcycle hseen (ih ?_ (hnodup.cons hcycle) ?_) ihIds
            · rw [List.length_cons]
              omega
            · exact List.cons_subset.mpr ⟨List.mem_map_of_mem hmem, hpath⟩
      · next hnone hone =>
        refine .ambiguous ?_ ihIds
        match hrecords : byProduct representatives id with
        | [] => exact absurd hrecords hnone
        | [record] => exact absurd hrecords (hone record)
        | _ :: _ :: _ => simp

/-! ## What a run keeps -/

variable {visiting ids : List String} {s s' : ClosureState}

/-- The records that are collected are the ones that are visited. -/
def ClosureState.Tracks (s : ClosureState) : Prop :=
  ∀ productId, productId ∈ s.visited ↔ ∃ record ∈ s.ordered, record.productId = productId

theorem ClosureState.Tracks.finish (h : s.Tracks) (record : RawCandidateRecord) :
    (s.finish record).Tracks := by
  intro productId
  simp only [ClosureState.finish, List.mem_cons, h productId, List.mem_append, List.mem_nil_iff,
    or_false]
  constructor
  · rintro (rfl | ⟨other, hother, hid⟩)
    · exact ⟨record, .inr rfl, rfl⟩
    · exact ⟨other, .inl hother, hid⟩
  · rintro ⟨other, hother | rfl, hid⟩
    · exact .inr ⟨other, hother, hid⟩
    · exact .inl hid.symm

theorem Walks.tracks (h : Walks representatives visiting ids s s') (hs : s.Tracks) : s'.Tracks := by
  induction h with
  | done => exact hs
  | missing _ _ ih => exact ih hs
  | ambiguous _ _ ih => exact ih hs
  | cyclic _ _ _ ih => exact ih hs
  | seen _ _ _ _ ih => exact ih hs
  | expands _ _ _ _ _ ihInner ihRest => exact ihRest ((ihInner hs).finish _)

theorem Walks.ordered (h : Walks representatives visiting ids s s') : s.ordered <+: s'.ordered := by
  induction h with
  | done => exact List.prefix_rfl
  | missing _ _ ih => exact ih
  | ambiguous _ _ ih => exact ih
  | cyclic _ _ _ ih => exact ih
  | seen _ _ _ _ ih => exact ih
  | expands _ _ _ _ _ ihInner ihRest =>
    exact (ihInner.trans (List.prefix_append _ _)).trans ihRest

theorem Walks.issues (h : Walks representatives visiting ids s s') : s.issues <+: s'.issues := by
  induction h with
  | done => exact List.prefix_rfl
  | missing _ _ ih => exact (List.prefix_append _ _).trans ih
  | ambiguous _ _ ih => exact (List.prefix_append _ _).trans ih
  | cyclic _ _ _ ih => exact (List.prefix_append _ _).trans ih
  | seen _ _ _ _ ih => exact ih
  | expands _ _ _ _ _ ihInner ihRest => exact ihInner.trans ihRest

theorem Walks.keeps_path (h : Walks representatives visiting ids s s') {productId : String}
    (hpath : productId ∈ visiting) (hvisited : productId ∈ s'.visited) : productId ∈ s.visited := by
  induction h with
  | done => exact hvisited
  | missing _ _ ih => exact ih hpath hvisited
  | ambiguous _ _ ih => exact ih hpath hvisited
  | cyclic _ _ _ ih => exact ih hpath hvisited
  | seen _ _ _ _ ih => exact ih hpath hvisited
  | expands _ hnot _ _ _ ihInner ihRest =>
    rcases List.mem_cons.mp (ihRest hpath hvisited) with rfl | hvisited
    · exact absurd hpath hnot
    · exact ihInner (List.mem_cons_of_mem _ hpath) hvisited

theorem Walks.nodup (h : Walks representatives visiting ids s s') (hs : s.Tracks)
    (hnodup : (s.ordered.map (·.productId)).Nodup) : (s'.ordered.map (·.productId)).Nodup := by
  induction h with
  | done => exact hnodup
  | missing _ _ ih => exact ih hs hnodup
  | ambiguous _ _ ih => exact ih hs hnodup
  | cyclic _ _ _ ih => exact ih hs hnodup
  | seen _ _ _ _ ih => exact ih hs hnodup
  | @expands _ _ _ record _ _ _ _ _ hnew hinner _ ihInner ihRest =>
    have htracks := hinner.tracks hs
    refine ihRest (htracks.finish record) ?_
    refine Table.Keyed.append (ihInner hs hnodup) (fun other hother hid => hnew ?_)
    exact hinner.keeps_path List.mem_cons_self ((htracks _).mpr ⟨other, hother, hid⟩)

theorem Walks.mem_ordered (h : Walks representatives visiting ids s s')
    (hmem : record ∈ s'.ordered) : record ∈ s.ordered ∨ ∃ id ∈ ids, ∃ dependency,
      byProduct representatives id = [dependency] ∧
        ReflTransGen (Requires representatives) dependency record := by
  induction h with
  | done => exact .inl hmem
  | missing _ _ ih => exact (ih hmem).imp_right fun ⟨id, hid, h⟩ => ⟨id, .tail _ hid, h⟩
  | ambiguous _ _ ih => exact (ih hmem).imp_right fun ⟨id, hid, h⟩ => ⟨id, .tail _ hid, h⟩
  | cyclic _ _ _ ih => exact (ih hmem).imp_right fun ⟨id, hid, h⟩ => ⟨id, .tail _ hid, h⟩
  | seen _ _ _ _ ih => exact (ih hmem).imp_right fun ⟨id, hid, h⟩ => ⟨id, .tail _ hid, h⟩
  | @expands _ _ id expanded _ _ _ hmatch _ _ _ _ ihInner ihRest =>
    rcases ihRest hmem with hmem | ⟨other, hother, h⟩
    · rcases List.mem_append.mp hmem with hmem | hmem
      · rcases ihInner hmem with hmem | ⟨inner, hinner, dependency, hdependency, hreach⟩
        · exact .inl hmem
        · exact .inr ⟨id, .head _, expanded, hmatch,
            .head ⟨inner, hinner, hdependency⟩ hreach⟩
      · obtain rfl := List.mem_singleton.mp hmem
        exact .inr ⟨id, .head _, record, hmatch, .refl⟩
    · exact .inr ⟨other, .tail _ hother, h⟩

theorem Walks.mem_representatives (h : Walks representatives visiting ids s s')
    (hs : ∀ record ∈ s.ordered, record ∈ representatives) :
    ∀ record ∈ s'.ordered, record ∈ representatives := by
  intro record hmem
  rcases h.mem_ordered hmem with hmem | ⟨id, -, dependency, hmatch, hreach⟩
  · exact hs record hmem
  · rcases hreach.cases_tail with rfl | ⟨_, -, _, -, hlast⟩
    · exact (mem_of_byProduct hmatch).1
    · exact (mem_of_byProduct hlast).1

/-! ## What a run covers -/

def cyclicIssue : String := "CYCLIC_COMPONENT_DEPENDENCY"

/-- Every dependency that one representative meets is visited, unless a cycle is reported. -/
theorem Walks.covers (h : Walks representatives visiting ids s s') (hs : s.Tracks) (hid : id ∈ ids)
    {dependency : RawCandidateRecord} (hdependency : byProduct representatives id = [dependency])
    (hcycle : cyclicIssue ∉ s'.issues) :
    ∃ record ∈ s'.ordered, record.productId = dependency.productId := by
  induction h with
  | done => cases hid
  | missing hmatch _ ih =>
    rcases List.mem_cons.mp hid with rfl | hid
    · rw [hmatch] at hdependency
      cases hdependency
    · exact ih hs hid hcycle
  | ambiguous hmatch _ ih =>
    rcases List.mem_cons.mp hid with rfl | hid
    · rw [hdependency] at hmatch
      exact absurd hmatch (by simp)
    · exact ih hs hid hcycle
  | cyclic _ _ hrest ih =>
    exact absurd (hrest.issues.subset (List.mem_append_right _ (List.mem_singleton_self _))) hcycle
  | seen hmatch _ hseen hrest ih =>
    rcases List.mem_cons.mp hid with rfl | hid
    · obtain rfl := List.singleton_inj.mp (hmatch.symm.trans hdependency)
      obtain ⟨record, hrecord, hsame⟩ := (hs _).mp hseen
      exact ⟨record, hrest.ordered.subset hrecord, hsame⟩
    · exact ih hs hid hcycle
  | expands hmatch _ _ hinner hrest _ ihRest =>
    rcases List.mem_cons.mp hid with rfl | hid
    · obtain rfl := List.singleton_inj.mp (hmatch.symm.trans hdependency)
      exact ⟨_, hrest.ordered.subset (List.mem_append_right _ (List.mem_singleton_self _)), rfl⟩
    · exact ihRest ((hinner.tracks hs).finish _) hid hcycle

theorem Walks.matches (h : Walks representatives visiting ids s s') (hissues : s'.issues = []) :
    ∀ id ∈ ids, ∃ dependency, byProduct representatives id = [dependency] := by
  have hgrown : ∀ {t : ClosureState} {issue : String} {later : List String},
      Walks representatives visiting later (t.addIssue issue) s' → False := by
    intro t issue later hlater
    have hmem := hlater.issues.subset (List.mem_append_right _ (List.mem_singleton_self issue))
    rw [hissues] at hmem
    cases hmem
  induction h with
  | done => nofun
  | missing _ hrest _ => exact (hgrown hrest).elim
  | ambiguous _ hrest _ => exact (hgrown hrest).elim
  | cyclic _ _ hrest _ => exact (hgrown hrest).elim
  | seen hmatch _ _ _ ih =>
    intro id hid
    rcases List.mem_cons.mp hid with rfl | hid
    · exact ⟨_, hmatch⟩
    · exact ih hissues hgrown id hid
  | expands hmatch _ _ _ _ _ ihRest =>
    intro id hid
    rcases List.mem_cons.mp hid with rfl | hid
    · exact ⟨_, hmatch⟩
    · exact ihRest hissues hgrown id hid

/-- Dependencies stand before their dependents, unless a cycle is reported. -/
def ClosureState.Topological (representatives : List RawCandidateRecord) (s : ClosureState) : Prop :=
  cyclicIssue ∉ s.issues → ∀ before record later, s.ordered = before ++ record :: later →
    ∀ dependency, Requires representatives record dependency → dependency ∈ before

/-- Every dependency of a collected record is met, unless there is an issue. -/
def ClosureState.Met (representatives : List RawCandidateRecord) (s : ClosureState) : Prop :=
  s.issues = [] → ∀ record ∈ s.ordered, ∀ id ∈ record.requiredProductIds.items,
    ∃ dependency, byProduct representatives id = [dependency]

theorem Walks.topological_finish {t : ClosureState}
    (h : Walks representatives visiting record.requiredProductIds.items s t) (hs : s.Tracks)
    (hmem : ∀ other ∈ s.ordered, other ∈ representatives)
    (ht : t.Topological representatives) : (t.finish record).Topological representatives := by
  intro hcycle before other later hsplit dependency hrequires
  rcases List.eq_nil_or_concat later with rfl | ⟨later, last, rfl⟩
  · obtain ⟨hbefore, hlast⟩ := List.append_inj' hsplit rfl
    obtain rfl : record = other := (List.cons.inj hlast).1
    obtain ⟨id, hid, hmatch⟩ := hrequires
    obtain ⟨found, hfound, hsame⟩ := h.covers hs hid hmatch hcycle
    have heq : found = dependency := eq_of_byProduct hmatch (h.mem_representatives hmem found hfound)
      (hsame.trans (mem_of_byProduct hmatch).2)
    exact hbefore ▸ heq ▸ hfound
  · rw [List.concat_eq_append, ← List.cons_append, ← List.append_assoc] at hsplit
    exact ht hcycle before other later (List.append_inj' hsplit rfl).1 dependency hrequires

theorem Walks.topological (h : Walks representatives visiting ids s s') (hs : s.Tracks)
    (hmem : ∀ record ∈ s.ordered, record ∈ representatives)
    (htopological : s.Topological representatives) : s'.Topological representatives := by
  have hadd : ∀ {t : ClosureState} {issue : String}, t.Topological representatives →
      (t.addIssue issue).Topological representatives :=
    fun ht hcycle => ht (fun hissue => hcycle (List.mem_append_left _ hissue))
  induction h with
  | done => exact htopological
  | missing _ _ ih => exact ih hs hmem (hadd htopological)
  | ambiguous _ _ ih => exact ih hs hmem (hadd htopological)
  | cyclic _ _ _ ih => exact ih hs hmem (hadd htopological)
  | seen _ _ _ _ ih => exact ih hs hmem htopological
  | expands hmatch _ _ hinner _ ihInner ihRest =>
    refine ihRest ((hinner.tracks hs).finish _) ?_
      (hinner.topological_finish hs hmem (ihInner hs hmem htopological))
    intro other hother
    rcases List.mem_append.mp hother with hother | hother
    · exact hinner.mem_representatives hmem other hother
    · exact List.mem_singleton.mp hother ▸ (mem_of_byProduct hmatch).1

theorem Walks.met (h : Walks representatives visiting ids s s') (hmet : s.Met representatives) :
    s'.Met representatives := by
  have hadd : ∀ {t : ClosureState} {issue : String}, (t.addIssue issue).Met representatives :=
    fun hissues => absurd hissues (List.append_ne_nil_of_right_ne_nil _ (List.cons_ne_nil _ _))
  induction h with
  | done => exact hmet
  | missing _ _ ih => exact ih hadd
  | ambiguous _ _ ih => exact ih hadd
  | cyclic _ _ _ ih => exact ih hadd
  | seen _ _ _ _ ih => exact ih hmet
  | expands _ _ _ hinner _ ihInner ihRest =>
    refine ihRest (fun hissues other hother => ?_)
    rcases List.mem_append.mp hother with hother | hother
    · exact ihInner hmet hissues other hother
    · exact List.mem_singleton.mp hother ▸ hinner.matches hissues

/-! ## Cycles -/

theorem Walks.cycle (h : Walks representatives visiting ids s s') {owner : RawCandidateRecord}
    (hids : ids ⊆ owner.requiredProductIds.items)
    (hpath : ∀ productId ∈ visiting, ∃ ancestor ∈ representatives,
      ancestor.productId = productId ∧ ReflTransGen (Requires representatives) ancestor owner)
    (hissue : cyclicIssue ∈ s'.issues) : cyclicIssue ∈ s.issues ∨
      ∃ record, ReflTransGen (Requires representatives) owner record ∧
        TransGen (Requires representatives) record record := by
  induction h generalizing owner with
  | done => exact .inl hissue
  | missing _ _ ih =>
    refine (ih (List.cons_subset.mp hids).2 hpath hissue).imp_left (fun hmem => ?_)
    exact (List.mem_append.mp hmem).resolve_right (by simp [cyclicIssue])
  | ambiguous _ _ ih =>
    refine (ih (List.cons_subset.mp hids).2 hpath hissue).imp_left (fun hmem => ?_)
    exact (List.mem_append.mp hmem).resolve_right (by simp [cyclicIssue])
  | @cyclic _ _ id record _ _ hmatch hon _ ih =>
    obtain ⟨ancestor, hancestor, hsame, hreach⟩ := hpath _ hon
    obtain rfl := eq_of_byProduct hmatch hancestor (hsame.trans (mem_of_byProduct hmatch).2)
    have hstep : Requires representatives owner ancestor :=
      ⟨id, (List.cons_subset.mp hids).1, hmatch⟩
    exact .inr ⟨ancestor, .single hstep, .tail' hreach hstep⟩
  | seen _ _ _ _ ih => exact ih (List.cons_subset.mp hids).2 hpath hissue
  | @expands _ _ id record _ _ _ hmatch _ _ hinner _ ihInner ihRest =>
    have hstep : Requires representatives owner record :=
      ⟨id, (List.cons_subset.mp hids).1, hmatch⟩
    rcases ihRest (List.cons_subset.mp hids).2 hpath hissue with hissue | hcycle
    · refine (ihInner (List.Subset.refl _) ?_ hissue).imp_right ?_
      · intro productId hmem
        rcases List.mem_cons.mp hmem with rfl | hmem
        · exact ⟨record, (mem_of_byProduct hmatch).1, rfl, .refl⟩
        · obtain ⟨ancestor, hancestor, hsame, hreach⟩ := hpath productId hmem
          exact ⟨ancestor, hancestor, hsame, hreach.tail hstep⟩
      · rintro ⟨found, hreach, hcycle⟩
        exact ⟨found, .head hstep hreach, hcycle⟩
    · exact .inr hcycle

/-! ## The closure -/

/-- The records of a bundle: distinct products, the root last, every requirement met by the only
    representative of its product, which stands earlier, and nothing that is not needed -/
structure OrderedClosure (representatives : List RawCandidateRecord) (root : RawCandidateRecord)
    (records : List RawCandidateRecord) : Prop where
  distinct : (records.map (·.productId)).Nodup
  last : records.getLast? = some root
  met : ∀ before record later, records = before ++ record :: later →
    ∀ id ∈ record.requiredProductIds.items, ∃ dependency ∈ before,
      byProduct representatives id = [dependency]
  reachable : ∀ record ∈ records, ReflTransGen (Requires representatives) root record

/-- The run that computes a closure -/
def Computes (representatives : List RawCandidateRecord) (root : RawCandidateRecord)
    (s : ClosureState) : Prop :=
  ∃ t, Walks representatives [root.productId] root.requiredProductIds.items {} t ∧
    s = t.finish root

variable {root : RawCandidateRecord}

theorem computes_closure (hroot : root ∈ representatives) : ∃ s, Computes representatives root s ∧
    closure representatives root = (s.ordered, sortedSet s.issues) := by
  have hwalks : Walks representatives [root.productId] root.requiredProductIds.items {}
      (root.requiredProductIds.items.foldl
        (visitDependency representatives representatives.length [root.productId]) {}) := by
    refine walks_foldl ?_ (List.nodup_singleton _) ?_
    · rw [List.length_singleton]
      exact Nat.lt_succ_self _
    · exact List.cons_subset.mpr ⟨List.mem_map_of_mem hroot, List.nil_subset _⟩
  exact ⟨_, ⟨_, hwalks, rfl⟩, rfl⟩

theorem Computes.distinct (h : Computes representatives root s) :
    (s.ordered.map (·.productId)).Nodup := by
  obtain ⟨t, hwalks, rfl⟩ := h
  have htracks : ClosureState.Tracks {} := fun _ => by simp
  refine Table.Keyed.append (hwalks.nodup htracks List.nodup_nil) (fun record hrecord hsame => ?_)
  have hvisited := (hwalks.tracks htracks root.productId).mpr ⟨record, hrecord, hsame⟩
  exact absurd (hwalks.keeps_path (List.mem_singleton_self _) hvisited) List.not_mem_nil

theorem Computes.getLast (h : Computes representatives root s) :
    s.ordered.getLast? = some root := by
  obtain ⟨t, -, rfl⟩ := h
  exact List.getLast?_concat

theorem Computes.reachable (h : Computes representatives root s) :
    ∀ record ∈ s.ordered, ReflTransGen (Requires representatives) root record := by
  obtain ⟨t, hwalks, rfl⟩ := h
  intro record hmem
  rcases List.mem_append.mp hmem with hmem | hmem
  · rcases hwalks.mem_ordered hmem with hmem | ⟨id, hid, dependency, hmatch, hreach⟩
    · cases hmem
    · exact .head ⟨id, hid, hmatch⟩ hreach
  · exact List.mem_singleton.mp hmem ▸ .refl

theorem Computes.topological (h : Computes representatives root s) :
    s.Topological representatives := by
  obtain ⟨t, hwalks, rfl⟩ := h
  have htracks : ClosureState.Tracks {} := fun _ => by simp
  have hempty : ClosureState.Topological representatives {} := by
    intro _ before record later hsplit
    exact absurd hsplit (by simp)
  exact hwalks.topological_finish htracks nofun (hwalks.topological htracks nofun hempty)

theorem Computes.met (h : Computes representatives root s) : s.Met representatives := by
  obtain ⟨t, hwalks, rfl⟩ := h
  intro hissues record hmem
  rcases List.mem_append.mp hmem with hmem | hmem
  · exact hwalks.met (fun _ => nofun) hissues record hmem
  · exact List.mem_singleton.mp hmem ▸ hwalks.matches hissues

theorem Computes.complete (h : Computes representatives root s) (hcycle : cyclicIssue ∉ s.issues)
    (hreach : ReflTransGen (Requires representatives) root record) : record ∈ s.ordered := by
  induction hreach with
  | refl => exact List.mem_of_getLast? h.getLast
  | tail _ hstep ih =>
    obtain ⟨before, later, hsplit⟩ := List.append_of_mem ih
    rw [hsplit]
    exact List.mem_append_left _ (h.topological hcycle before _ later hsplit _ hstep)

theorem Computes.idxOf_lt (h : Computes representatives root s) (hcycle : cyclicIssue ∉ s.issues)
    {dependency : RawCandidateRecord} (hreach : ReflTransGen (Requires representatives) root record)
    (hstep : Requires representatives record dependency) :
    (s.ordered.map (·.productId)).idxOf dependency.productId <
      (s.ordered.map (·.productId)).idxOf record.productId := by
  obtain ⟨before, later, hsplit⟩ := List.append_of_mem (h.complete hcycle hreach)
  have hmem := h.topological hcycle before record later hsplit dependency hstep
  have hdistinct := h.distinct
  rw [hsplit, List.map_append, List.map_cons] at hdistinct ⊢
  have hearlier : dependency.productId ∈ before.map (·.productId) := List.mem_map_of_mem hmem
  have hnot : record.productId ∉ before.map (·.productId) := fun hin =>
    List.disjoint_of_nodup_append hdistinct hin List.mem_cons_self
  rw [List.idxOf_append_of_mem hearlier, List.idxOf_append_of_notMem hnot]
  exact Nat.lt_add_right _ (List.idxOf_lt_length_of_mem hearlier)

theorem Computes.acyclic (h : Computes representatives root s) (hcycle : cyclicIssue ∉ s.issues)
    {other : RawCandidateRecord} (hreach : ReflTransGen (Requires representatives) root record)
    (hsteps : TransGen (Requires representatives) record other) :
    (s.ordered.map (·.productId)).idxOf other.productId <
      (s.ordered.map (·.productId)).idxOf record.productId := by
  induction hsteps with
  | single hstep => exact h.idxOf_lt hcycle hreach hstep
  | tail hsteps hstep ih =>
    exact (h.idxOf_lt hcycle (hreach.trans hsteps.to_reflTransGen) hstep).trans ih

theorem Computes.cyclic_iff (h : Computes representatives root s) (hroot : root ∈ representatives) :
    cyclicIssue ∈ s.issues ↔ ∃ record, ReflTransGen (Requires representatives) root record ∧
      TransGen (Requires representatives) record record := by
  constructor
  · intro hissue
    obtain ⟨t, hwalks, rfl⟩ := h
    refine (hwalks.cycle (List.Subset.refl _) ?_ hissue).resolve_left List.not_mem_nil
    intro productId hmem
    exact ⟨root, hroot, (List.mem_singleton.mp hmem).symm, .refl⟩
  · rintro ⟨record, hreach, hsteps⟩
    by_contra hcycle
    exact Nat.lt_irrefl _ (h.acyclic hcycle hreach hsteps)

/-- The closure of every representative is computed by a run that ends. Without an issue its
    records are the needed ones in order, and a cycle is reported exactly when one can be reached
    along requirements that one representative alone meets. -/
theorem closure_correct (hroot : root ∈ representatives) :
    (∃ s, Computes representatives root s ∧
      closure representatives root = (s.ordered, sortedSet s.issues)) ∧
    ((closure representatives root).2 = [] →
      OrderedClosure representatives root (closure representatives root).1) ∧
    ("CYCLIC_COMPONENT_DEPENDENCY" ∈ (closure representatives root).2 ↔
      ∃ record, ReflTransGen (Requires representatives) root record ∧
        TransGen (Requires representatives) record record) := by
  obtain ⟨s, hs, hclosure⟩ := computes_closure hroot
  refine ⟨⟨s, hs, hclosure⟩, ?_, ?_⟩
  · rw [hclosure]
    dsimp only
    intro hissues
    replace hissues : s.issues = [] := sortedSet_eq_nil.mp hissues
    refine ⟨hs.distinct, hs.getLast, fun before record later hsplit id hid => ?_, hs.reachable⟩
    have hmem : record ∈ s.ordered := hsplit ▸ List.mem_append_right _ List.mem_cons_self
    obtain ⟨dependency, hmatch⟩ := hs.met hissues record hmem id hid
    have hcycle : cyclicIssue ∉ s.issues := by
      rw [hissues]
      exact List.not_mem_nil
    exact ⟨dependency, hs.topological hcycle before record later hsplit dependency
      ⟨id, hid, hmatch⟩, hmatch⟩
  · rw [hclosure]
    dsimp only
    rw [mem_sortedSet]
    exact hs.cyclic_iff hroot

/-- The bundle of the sample: the needed product first, then the one that needs it -/
theorem closure_correct_sample :
    (closure [Sample.crm, Sample.sso] Sample.crm).2 = [] ∧
      OrderedClosure [Sample.crm, Sample.sso] Sample.crm
        (closure [Sample.crm, Sample.sso] Sample.crm).1 := by
  have hissues : (closure [Sample.crm, Sample.sso] Sample.crm).2 = [] := by decide +kernel
  exact ⟨hissues, (closure_correct List.mem_cons_self).2.1 hissues⟩

end DecisionEngine
