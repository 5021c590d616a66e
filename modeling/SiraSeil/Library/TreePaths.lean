-- SUMMARY: Reading and writing a keyed tree along a path, and what a copy of some paths holds.
import SiraSeil.Library.Dict
import SiraSeil.Library.KeyedTree

/-!
# Paths of a tree

A path of keys leads from an object to a tree below it. A write along a path makes the objects that
are missing on the way. A copy of some paths of a tree is a part of that tree, and it depends on
what the tree holds at those paths only.
-/

namespace KeyedTree

variable {κ α β : Type}

section Paths

variable [DecidableEq κ]

/-- The tree at the end of a path -/
def subtree : List κ → KeyedTree κ α → Option (KeyedTree κ α)
  | [], t => some t
  | k :: path, obj fields => (fields.lookup k).bind (subtree path)
  | _ :: _, _ => none

/-- The fields with the value of a key replaced, or with a new field at the end -/
def setField (k : κ) (t : KeyedTree κ α) (fields : List (κ × KeyedTree κ α)) :
    List (κ × KeyedTree κ α) :=
  if k ∈ fields.map Prod.fst then Dict.overwrite k t fields else fields ++ [(k, t)]

/-- The fields after a write at the end of a path. There are none if the path leads through a tree
    that is no object. -/
def write (t : KeyedTree κ α) : List κ → κ → List (κ × KeyedTree κ α) →
    Option (List (κ × KeyedTree κ α))
  | [], last, fields => some (setField last t fields)
  | k :: parents, last, fields =>
    match (fields.lookup k).getD (obj []) with
    | obj below => (write t parents last below).map (fun below => setField k (obj below) fields)
    | _ => none

theorem lookup_setField (k k' : κ) (t : KeyedTree κ α) (fields : List (κ × KeyedTree κ α)) :
    (setField k t fields).lookup k' = if k' = k then some t else fields.lookup k' := by
  unfold setField
  by_cases hkey : k' = k
  · subst hkey
    rw [if_pos rfl]
    split
    · next hmem => exact Dict.lookup_overwrite_self t hmem
    · next hnew =>
      have hnone : fields.lookup k' = none := by
        rw [List.lookup_eq_none_iff]
        intro p hp
        apply bne_iff_ne.mpr
        rintro rfl
        exact hnew (List.mem_map_of_mem hp)
      simp [List.lookup_append, hnone]
  · rw [if_neg hkey]
    split
    · exact Dict.lookup_overwrite_of_ne hkey t fields
    · have hne : (k' == k) = false := beq_false_of_ne hkey
      simp [List.lookup_append, List.lookup_cons, hne]

variable {k : κ} {t u : KeyedTree κ α} {fields whole : List (κ × KeyedTree κ α)}

theorem nodup_setField
    (h : (fields.map Prod.fst).Nodup) : ((setField k t fields).map Prod.fst).Nodup := by
  unfold setField
  split
  · rw [Dict.map_fst_overwrite]
    exact h
  · next hnew =>
    rw [List.map_append]
    exact List.Nodup.append h (by simp) (by simpa using hnew)

theorem setField_lookup (hnodup : (fields.map Prod.fst).Nodup) (h : fields.lookup k = some t) :
    setField k t fields = fields := by
  have hmem : (k, t) ∈ fields := (Dict.lookup_eq_some_iff hnodup).mp h
  have hsame : ∀ p ∈ fields, (if p.1 = k then (k, t) else p) = p := by
    intro p hp
    split
    · next hkey => exact (List.inj_on_of_nodup_map hnodup hp hmem hkey).symm
    · rfl
  unfold setField Dict.overwrite
  rw [if_pos (List.mem_map_of_mem (f := Prod.fst) hmem), List.map_congr_left hsame, List.map_id']

theorem Distinct.of_lookup (hfields : (obj fields).Distinct)
    (h : fields.lookup k = some t) : t.Distinct :=
  distinctFields_iff.mp hfields.2 (k, t) ((Dict.lookup_eq_some_iff hfields.1).mp h)

/-! ## Parts -/

/-- A tree is a part of another: it is the other, or an object whose fields are parts of the
    other's. -/
inductive Part : KeyedTree κ α → KeyedTree κ α → Prop
  | whole (t : KeyedTree κ α) : Part t t
  | fields {fields whole : List (κ × KeyedTree κ α)} (hnodup : (fields.map Prod.fst).Nodup)
      (below : κ → KeyedTree κ α)
      (hfound : ∀ k t, fields.lookup k = some t → whole.lookup k = some (below k))
      (hpart : ∀ k t, fields.lookup k = some t → Part t (below k)) : Part (obj fields) (obj whole)

theorem Part.empty (whole : List (κ × KeyedTree κ α)) : Part (obj []) (obj whole) :=
  .fields (by simp) (fun _ => obj []) (by simp) (by simp)

theorem Part.of_lookup (h : Part (obj fields) (obj whole)) (hfield : fields.lookup k = some t) :
    ∃ u, whole.lookup k = some u ∧ Part t u := by
  cases h with
  | whole => exact ⟨t, hfield, .whole t⟩
  | fields hnodup below hfound hpart => exact ⟨below k, hfound k t hfield, hpart k t hfield⟩

theorem Part.exists_fields (h : Part t (obj whole)) : ∃ fields, t = obj fields := by
  cases h with
  | whole => exact ⟨whole, rfl⟩
  | fields => exact ⟨_, rfl⟩

theorem Part.setField {fields whole : List (κ × KeyedTree κ α)} (h : Part (obj fields) (obj whole))
    (hwhole : (whole.map Prod.fst).Nodup) {k : κ} {t u : KeyedTree κ α} (hfield : whole.lookup k = some u)
    (hpart : Part t u) : Part (obj (setField k t fields)) (obj whole) := by
  have hnodup : (fields.map Prod.fst).Nodup := by
    cases h with
    | whole => exact hwhole
    | fields hnodup => exact hnodup
  have hbelow : ∀ k' t', (KeyedTree.setField k t fields).lookup k' = some t' →
      ∃ u', whole.lookup k' = some u' ∧ Part t' u' := by
    intro k' t' hlookup
    rw [lookup_setField] at hlookup
    split at hlookup
    · next hkey =>
      cases hlookup
      exact ⟨u, hkey ▸ hfield, hpart⟩
    · exact h.of_lookup hlookup
  refine .fields (nodup_setField hnodup) (fun k' => (whole.lookup k').getD (obj [])) ?_ ?_
  · intro k' t' hlookup
    obtain ⟨u', hu', -⟩ := hbelow k' t' hlookup
    simp [hu']
  · intro k' t' hlookup
    obtain ⟨u', hu', hpart'⟩ := hbelow k' t' hlookup
    simpa [hu'] using hpart'

theorem Part.distinct (h : Part t u) (hu : u.Distinct) : t.Distinct := by
  induction h with
  | whole => exact hu
  | @fields fields whole hnodup below hfound _ ih =>
    refine ⟨hnodup, distinctFields_iff.mpr ?_⟩
    rintro ⟨k, t⟩ hp
    have hlookup := (Dict.lookup_eq_some_iff hnodup).mpr hp
    exact ih k t hlookup (hu.of_lookup (hfound k t hlookup))

theorem Part.mem_keys (h : Part t u) (hk : k ∈ t.keys) : k ∈ u.keys := by
  induction h with
  | whole => exact hk
  | @fields fields whole hnodup below hfound _ ih =>
    obtain ⟨p, hp, hk⟩ := mem_fieldKeys.mp hk
    have hlookup := (Dict.lookup_eq_some_iff hnodup).mpr hp
    obtain ⟨before, after, hwhole, -⟩ := List.lookup_eq_some_iff.mp (hfound p.1 p.2 hlookup)
    have hmem : (p.1, below p.1) ∈ whole := by simp [hwhole]
    apply mem_fieldKeys.mpr
    rcases hk with rfl | hk
    · exact ⟨_, hmem, .inl rfl⟩
    · exact ⟨_, hmem, .inr (ih p.1 p.2 hlookup hk)⟩

theorem Part.subtree_eq_none (h : Part t u) {path : List κ}
    (hu : subtree path u = none) : subtree path t = none := by
  induction path generalizing t u with
  | nil => cases hu
  | cons k path ih =>
    cases h with
    | whole => exact hu
    | @fields fields whole _ below hfound hpart =>
      simp only [subtree] at hu ⊢
      cases hlookup : fields.lookup k with
      | none => rfl
      | some t =>
        rw [hfound k t hlookup] at hu
        exact ih (hpart k t hlookup) hu

/-- A write of what the whole holds at a path succeeds on a part. It leaves a part that agrees with
    the whole at that path, and wherever the part agreed with it before. -/
theorem Part.write {parents : List κ} {last : κ} (h : Part (obj fields) (obj whole))
    (hwhole : (obj whole).Distinct) (ht : subtree (parents ++ [last]) (obj whole) = some t) :
    ∃ fields', KeyedTree.write t parents last fields = some fields' ∧ Part (obj fields') (obj whole) ∧
      subtree (parents ++ [last]) (obj fields') = some t ∧
      ∀ path, subtree path (obj fields) = subtree path (obj whole) →
        subtree path (obj fields') = subtree path (obj whole) := by
  induction parents generalizing fields whole with
  | nil =>
    have hfield : whole.lookup last = some t := by simpa [subtree] using ht
    refine ⟨KeyedTree.setField last t fields, rfl, h.setField hwhole.1 hfield (.whole t), ?_, ?_⟩
    · simp [subtree, lookup_setField]
    · intro path hpath
      cases path with
      | nil =>
        cases hpath
        rw [setField_lookup hwhole.1 hfield]
      | cons k path =>
        simp only [subtree, lookup_setField] at hpath ⊢
        split
        · next hkey => rw [hkey, hfield]
        · exact hpath
  | cons k parents ih =>
    simp only [List.cons_append, subtree, Option.bind_eq_some_iff] at ht
    obtain ⟨u, hu, ht⟩ := ht
    -- the path goes on below `u`, which so is an object
    obtain ⟨wholeBelow, rfl⟩ : ∃ wholeBelow, u = obj wholeBelow := by
      cases u with
      | obj wholeBelow => exact ⟨wholeBelow, rfl⟩
      | leaf => cases parents <;> cases ht
      | seq => cases parents <;> cases ht
    obtain ⟨below, hbelow, hpartBelow⟩ : ∃ below, (fields.lookup k).getD (obj []) = obj below ∧
        Part (obj below) (obj wholeBelow) := by
      cases hfield : fields.lookup k with
      | none => exact ⟨[], rfl, .empty wholeBelow⟩
      | some v =>
        obtain ⟨u', hu', hpart⟩ := h.of_lookup hfield
        cases hu.symm.trans hu'
        obtain ⟨below, rfl⟩ := hpart.exists_fields
        exact ⟨below, rfl, hpart⟩
    obtain ⟨below', hwrite, hpart', hat, hkeeps⟩ := ih hpartBelow (hwhole.of_lookup hu) ht
    refine ⟨KeyedTree.setField k (obj below') fields, ?_, h.setField hwhole.1 hu hpart', ?_, ?_⟩
    · simp [KeyedTree.write, hbelow, hwrite]
    · simpa [subtree, lookup_setField] using hat
    · intro path hpath
      cases path with
      | nil =>
        cases hpath
        simp only [hu, Option.getD_some] at hbelow
        have hsame := hkeeps [] (congrArg some hbelow.symm)
        rw [Option.some.inj hsame, setField_lookup hwhole.1 hu]
      | cons k' path =>
        simp only [subtree, lookup_setField] at hpath ⊢
        split
        · next hkey =>
          subst hkey
          simp only [hu, Option.bind_some] at hpath ⊢
          cases hfield : fields.lookup k' with
          | none =>
            simp only [hfield, Option.bind_none] at hpath
            rw [← hpath]
            exact hpart'.subtree_eq_none hpath.symm
          | some v =>
            simp only [hfield, Option.bind_some, Option.getD_some] at hpath hbelow
            exact hkeeps path (hbelow ▸ hpath)
        · exact hpath

end Paths

/-! ## Equal trees -/

section Equal

variable [LinearOrder κ] (f : α → β)

/-- The tree under a map, with the fields of every object in the order of their keys -/
def normal (t : KeyedTree κ α) : KeyedTree κ β :=
  (t.map f).sorted

variable {f}

theorem lookup_map_snd {γ δ : Type} (g : γ → δ) (fields : List (κ × γ)) (k : κ) :
    (fields.map (fun p => (p.1, g p.2))).lookup k = (fields.lookup k).map g := by
  induction fields with
  | nil => rfl
  | cons p fields ih =>
    rw [List.map_cons, List.lookup_cons, List.lookup_cons, ih]
    split <;> rfl

theorem normal_obj (fields : List (κ × KeyedTree κ α)) :
    (obj fields).normal f =
      obj (Sorting.sortedBy Prod.fst (fields.map (fun p => (p.1, p.2.normal f)))) := by
  unfold normal
  simp only [map, sorted, mapFields_eq, sortedFields_eq, List.map_map]
  rfl

/-- Two objects are equal exactly if they have the same keys and equal trees under every key. -/
theorem sameBy_obj {fields fields' : List (κ × KeyedTree κ α)} (h : (fields.map Prod.fst).Nodup)
    (h' : (fields'.map Prod.fst).Nodup) :
    (obj fields).SameBy f (obj fields') ↔
      ∀ k, (fields.lookup k).map (normal f) = (fields'.lookup k).map (normal f) := by
  have hkeys : ∀ l : List (κ × KeyedTree κ α), (l.map Prod.fst).Nodup →
      ((l.map (fun p => (p.1, p.2.normal f))).map Prod.fst).Nodup := by
    intro l hl
    rw [List.map_map]
    exact hl
  have hperm : (obj fields).SameBy f (obj fields') ↔
      (fields.map (fun p => (p.1, p.2.normal f))).Perm (fields'.map (fun p => (p.1, p.2.normal f))) := by
    show (obj fields).normal f = (obj fields').normal f ↔ _
    rw [normal_obj, normal_obj, obj.injEq]
    constructor
    · intro heq
      have hperm := Sorting.sortedBy_perm Prod.fst (fields.map (fun p => (p.1, p.2.normal f)))
      rw [heq] at hperm
      exact hperm.symm.trans (Sorting.sortedBy_perm _ _)
    · intro hperm
      exact Sorting.sortedBy_congr_perm hperm (.of_nodup (hkeys fields h))
  rw [hperm, List.perm_ext_iff_of_nodup (hkeys fields h).of_map (hkeys fields' h').of_map]
  simp only [Prod.forall, ← Dict.lookup_eq_some_iff (hkeys fields h),
    ← Dict.lookup_eq_some_iff (hkeys fields' h'), lookup_map_snd]
  exact forall_congr' fun k => Option.ext_iff.symm

theorem SameBy.exists_fields {t : KeyedTree κ α} {fields : List (κ × KeyedTree κ α)}
    (h : (obj fields).SameBy f t) : ∃ fields', t = obj fields' := by
  cases t with
  | obj fields' => exact ⟨fields', rfl⟩
  | leaf => simp [SameBy, map, sorted] at h
  | seq => simp [SameBy, map, sorted] at h

theorem SameBy.write {t t' : KeyedTree κ α} (ht : t.SameBy f t') {parents : List κ} {last : κ}
    {fields fields' out out' : List (κ × KeyedTree κ α)} (hfields : (obj fields).Distinct)
    (hfields' : (obj fields').Distinct) (h : (obj fields).SameBy f (obj fields'))
    (hout : write t parents last fields = some out)
    (hout' : KeyedTree.write t' parents last fields' = some out') :
    (obj out).SameBy f (obj out') := by
  have hset : ∀ {k : κ} {u u' : KeyedTree κ α} {fields fields' : List (κ × KeyedTree κ α)},
      (obj fields).Distinct → (obj fields').Distinct → (obj fields).SameBy f (obj fields') →
        u.SameBy f u' → (obj (setField k u fields)).SameBy f (obj (setField k u' fields')) := by
    intro k u u' fields fields' hfields hfields' h hu
    rw [sameBy_obj (nodup_setField hfields.1) (nodup_setField hfields'.1)]
    intro k'
    rw [lookup_setField, lookup_setField]
    split
    · exact congrArg some hu
    · exact (sameBy_obj hfields.1 hfields'.1).mp h k'
  induction parents generalizing fields fields' out out' with
  | nil =>
    cases hout
    cases hout'
    exact hset hfields hfields' h ht
  | cons k parents ih =>
    have hlookup := (sameBy_obj hfields.1 hfields'.1).mp h k
    have hbelow : ((fields.lookup k).getD (obj [])).SameBy f ((fields'.lookup k).getD (obj [])) := by
      show ((fields.lookup k).getD (obj [])).normal f = ((fields'.lookup k).getD (obj [])).normal f
      rw [← Option.getD_map (normal f), ← Option.getD_map (normal f), hlookup]
    have hdistinct : ∀ {l : List (κ × KeyedTree κ α)}, (obj l).Distinct →
        ((l.lookup k).getD (obj [])).Distinct := by
      intro l hl
      cases hfield : l.lookup k with
      | none => exact ⟨List.nodup_nil, trivial⟩
      | some u => exact hl.of_lookup hfield
    have hown := hdistinct hfields
    have hown' := hdistinct hfields'
    unfold KeyedTree.write at hout hout'
    split at hout
    · next below hobj =>
      rw [hobj] at hbelow hown
      obtain ⟨below', hobj'⟩ := hbelow.exists_fields
      rw [hobj'] at hbelow hown' hout'
      obtain ⟨made, hmade, rfl⟩ := Option.map_eq_some_iff.mp hout
      obtain ⟨made', hmade', rfl⟩ := Option.map_eq_some_iff.mp hout'
      exact hset hfields hfields' h (ih hown hown' hbelow hmade hmade')
    · cases hout

theorem SameBy.mem_keys {t u : KeyedTree κ α} (h : t.SameBy f u) {k : κ} : k ∈ t.keys ↔ k ∈ u.keys := by
  rw [← keys_map f t, ← keys_map f u, ← mem_keys_sorted (t.map f), h, mem_keys_sorted]

end Equal

end KeyedTree
