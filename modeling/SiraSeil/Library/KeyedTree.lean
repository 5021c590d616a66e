-- SUMMARY: Trees of sequences and of fields under keys: maps of their leaves, their fields in the order of the keys, and when maps of two trees agree.
import SiraSeil.Library.Sorting

/-!
# Keyed trees

A tree is a leaf, a sequence of trees, or a list of trees under keys. Two trees that differ in the
order of their fields only have the same sorted tree.
-/

inductive KeyedTree (κ α : Type)
  | leaf (a : α)
  | seq (items : List (KeyedTree κ α))
  | obj (fields : List (κ × KeyedTree κ α))

namespace KeyedTree

variable {κ α β γ : Type}

mutual
/-- The tree with its leaves mapped -/
def map (f : α → β) : KeyedTree κ α → KeyedTree κ β
  | leaf a => leaf (f a)
  | seq items => seq (mapSeq f items)
  | obj fields => obj (mapFields f fields)

def mapSeq (f : α → β) : List (KeyedTree κ α) → List (KeyedTree κ β)
  | [] => []
  | t :: items => map f t :: mapSeq f items

def mapFields (f : α → β) : List (κ × KeyedTree κ α) → List (κ × KeyedTree κ β)
  | [] => []
  | (k, t) :: fields => (k, map f t) :: mapFields f fields
end

mutual
/-- The leaves of a tree, in their order -/
def leaves : KeyedTree κ α → List α
  | leaf a => [a]
  | seq items => seqLeaves items
  | obj fields => fieldLeaves fields

def seqLeaves : List (KeyedTree κ α) → List α
  | [] => []
  | t :: items => leaves t ++ seqLeaves items

def fieldLeaves : List (κ × KeyedTree κ α) → List α
  | [] => []
  | (_, t) :: fields => leaves t ++ fieldLeaves fields
end

mutual
/-- The keys of all objects of a tree -/
def keys : KeyedTree κ α → List κ
  | leaf _ => []
  | seq items => seqKeys items
  | obj fields => fieldKeys fields

def seqKeys : List (KeyedTree κ α) → List κ
  | [] => []
  | t :: items => keys t ++ seqKeys items

def fieldKeys : List (κ × KeyedTree κ α) → List κ
  | [] => []
  | (k, t) :: fields => k :: keys t ++ fieldKeys fields
end

mutual
/-- No object has two fields under one key. -/
def Distinct : KeyedTree κ α → Prop
  | leaf _ => True
  | seq items => DistinctSeq items
  | obj fields => (fields.map Prod.fst).Nodup ∧ DistinctFields fields

def DistinctSeq : List (KeyedTree κ α) → Prop
  | [] => True
  | t :: items => Distinct t ∧ DistinctSeq items

def DistinctFields : List (κ × KeyedTree κ α) → Prop
  | [] => True
  | (_, t) :: fields => Distinct t ∧ DistinctFields fields
end

theorem mapFields_eq (f : α → β) (fields : List (κ × KeyedTree κ α)) :
    mapFields f fields = fields.map (fun p => (p.1, p.2.map f)) := by
  induction fields with
  | nil => rfl
  | cons p fields ih =>
    obtain ⟨k, t⟩ := p
    simp only [mapFields, ih, List.map_cons]

theorem mem_fieldLeaves {fields : List (κ × KeyedTree κ α)} {a : α} :
    a ∈ fieldLeaves fields ↔ ∃ p ∈ fields, a ∈ p.2.leaves := by
  induction fields with
  | nil => simp [fieldLeaves]
  | cons p fields ih =>
    obtain ⟨k, t⟩ := p
    simp only [fieldLeaves, List.mem_append, ih, List.exists_mem_cons_iff]

theorem mem_fieldKeys {fields : List (κ × KeyedTree κ α)} {k : κ} :
    k ∈ fieldKeys fields ↔ ∃ p ∈ fields, k = p.1 ∨ k ∈ p.2.keys := by
  induction fields with
  | nil => simp [fieldKeys]
  | cons p fields ih =>
    obtain ⟨l, t⟩ := p
    simp only [fieldKeys, List.cons_append, List.mem_cons, List.mem_append, ih, exists_eq_or_imp,
      or_assoc]

/-! ## Maps -/

mutual
theorem leaves_map (f : α → β) : (t : KeyedTree κ α) → (t.map f).leaves = t.leaves.map f
  | leaf _ => rfl
  | seq items => seqLeaves_map f items
  | obj fields => fieldLeaves_map f fields

theorem seqLeaves_map (f : α → β) : (items : List (KeyedTree κ α)) →
    seqLeaves (mapSeq f items) = (seqLeaves items).map f
  | [] => rfl
  | t :: items => by
    simp only [mapSeq, seqLeaves, List.map_append, leaves_map f t, seqLeaves_map f items]

theorem fieldLeaves_map (f : α → β) : (fields : List (κ × KeyedTree κ α)) →
    fieldLeaves (mapFields f fields) = (fieldLeaves fields).map f
  | [] => rfl
  | (_, t) :: fields => by
    simp only [mapFields, fieldLeaves, List.map_append, leaves_map f t, fieldLeaves_map f fields]
end

mutual
theorem keys_map (f : α → β) : (t : KeyedTree κ α) → (t.map f).keys = t.keys
  | leaf _ => rfl
  | seq items => seqKeys_map f items
  | obj fields => fieldKeys_map f fields

theorem seqKeys_map (f : α → β) : (items : List (KeyedTree κ α)) →
    seqKeys (mapSeq f items) = seqKeys items
  | [] => rfl
  | t :: items => by simp only [mapSeq, seqKeys, keys_map f t, seqKeys_map f items]

theorem fieldKeys_map (f : α → β) : (fields : List (κ × KeyedTree κ α)) →
    fieldKeys (mapFields f fields) = fieldKeys fields
  | [] => rfl
  | (_, t) :: fields => by simp only [mapFields, fieldKeys, keys_map f t, fieldKeys_map f fields]
end

mutual
theorem Distinct.map (f : α → β) : (t : KeyedTree κ α) → t.Distinct → (t.map f).Distinct
  | leaf _, _ => trivial
  | seq items, h => DistinctSeq.map f items h
  | obj fields, h => by
    refine ⟨?_, DistinctFields.map f fields h.2⟩
    rw [mapFields_eq, List.map_map]
    exact h.1

theorem DistinctSeq.map (f : α → β) : (items : List (KeyedTree κ α)) →
    DistinctSeq items → DistinctSeq (mapSeq f items)
  | [], _ => trivial
  | t :: items, h => ⟨Distinct.map f t h.1, DistinctSeq.map f items h.2⟩

theorem DistinctFields.map (f : α → β) : (fields : List (κ × KeyedTree κ α)) →
    DistinctFields fields → DistinctFields (mapFields f fields)
  | [], _ => trivial
  | (_, t) :: fields, h => ⟨Distinct.map f t h.1, DistinctFields.map f fields h.2⟩
end

/-! ## Maps that agree -/

mutual
/-- Trees that one map makes equal are made equal by every map that does not tell apart what the
    first one identifies. -/
theorem map_eq_of_map_eq {f : α → β} {g : α → γ} : (t u : KeyedTree κ α) →
    (∀ a ∈ t.leaves, ∀ b ∈ u.leaves, f a = f b → g a = g b) → t.map f = u.map f →
      t.map g = u.map g
  | leaf a, leaf b, hfg, h => by
    simp only [map, leaf.injEq] at h ⊢
    exact hfg a (by simp [leaves]) b (by simp [leaves]) h
  | seq items, seq items', hfg, h => by
    simp only [map, seq.injEq] at h ⊢
    exact mapSeq_eq_of_mapSeq_eq items items' hfg h
  | obj fields, obj fields', hfg, h => by
    simp only [map, obj.injEq] at h ⊢
    exact mapFields_eq_of_mapFields_eq fields fields' hfg h
  | leaf _, seq _, _, h => by simp [map] at h
  | leaf _, obj _, _, h => by simp [map] at h
  | seq _, leaf _, _, h => by simp [map] at h
  | seq _, obj _, _, h => by simp [map] at h
  | obj _, leaf _, _, h => by simp [map] at h
  | obj _, seq _, _, h => by simp [map] at h

theorem mapSeq_eq_of_mapSeq_eq {f : α → β} {g : α → γ} : (items items' : List (KeyedTree κ α)) →
    (∀ a ∈ seqLeaves items, ∀ b ∈ seqLeaves items', f a = f b → g a = g b) →
      mapSeq f items = mapSeq f items' → mapSeq g items = mapSeq g items'
  | [], [], _, _ => rfl
  | t :: items, u :: items', hfg, h => by
    simp only [mapSeq, List.cons.injEq] at h ⊢
    refine ⟨map_eq_of_map_eq t u (fun a ha b hb => ?_) h.1,
      mapSeq_eq_of_mapSeq_eq items items' (fun a ha b hb => ?_) h.2⟩
    · exact hfg a (List.mem_append_left _ ha) b (List.mem_append_left _ hb)
    · exact hfg a (List.mem_append_right _ ha) b (List.mem_append_right _ hb)
  | [], _ :: _, _, h => by simp [mapSeq] at h
  | _ :: _, [], _, h => by simp [mapSeq] at h

theorem mapFields_eq_of_mapFields_eq {f : α → β} {g : α → γ} :
    (fields fields' : List (κ × KeyedTree κ α)) →
      (∀ a ∈ fieldLeaves fields, ∀ b ∈ fieldLeaves fields', f a = f b → g a = g b) →
        mapFields f fields = mapFields f fields' → mapFields g fields = mapFields g fields'
  | [], [], _, _ => rfl
  | (k, t) :: fields, (k', u) :: fields', hfg, h => by
    simp only [mapFields, List.cons.injEq, Prod.mk.injEq] at h ⊢
    refine ⟨⟨h.1.1, map_eq_of_map_eq t u (fun a ha b hb => ?_) h.1.2⟩,
      mapFields_eq_of_mapFields_eq fields fields' (fun a ha b hb => ?_) h.2⟩
    · exact hfg a (List.mem_append_left _ ha) b (List.mem_append_left _ hb)
    · exact hfg a (List.mem_append_right _ ha) b (List.mem_append_right _ hb)
  | [], _ :: _, _, h => by simp [mapFields] at h
  | _ :: _, [], _, h => by simp [mapFields] at h
end

mutual
theorem map_pair_eq {f : α → β} {g : α → γ} : (t u : KeyedTree κ α) →
    t.map f = u.map f → t.map g = u.map g →
      t.map (fun a => (f a, g a)) = u.map (fun a => (f a, g a))
  | leaf a, leaf b, hf, hg => by
    simp only [map, leaf.injEq] at hf hg ⊢
    rw [hf, hg]
  | seq items, seq items', hf, hg => by
    simp only [map, seq.injEq] at hf hg ⊢
    exact mapSeq_pair_eq items items' hf hg
  | obj fields, obj fields', hf, hg => by
    simp only [map, obj.injEq] at hf hg ⊢
    exact mapFields_pair_eq fields fields' hf hg
  | leaf _, seq _, h, _ => by simp [map] at h
  | leaf _, obj _, h, _ => by simp [map] at h
  | seq _, leaf _, h, _ => by simp [map] at h
  | seq _, obj _, h, _ => by simp [map] at h
  | obj _, leaf _, h, _ => by simp [map] at h
  | obj _, seq _, h, _ => by simp [map] at h

theorem mapSeq_pair_eq {f : α → β} {g : α → γ} : (items items' : List (KeyedTree κ α)) →
    mapSeq f items = mapSeq f items' → mapSeq g items = mapSeq g items' →
      mapSeq (fun a => (f a, g a)) items = mapSeq (fun a => (f a, g a)) items'
  | [], [], _, _ => rfl
  | t :: items, u :: items', hf, hg => by
    simp only [mapSeq, List.cons.injEq] at hf hg ⊢
    exact ⟨map_pair_eq t u hf.1 hg.1, mapSeq_pair_eq items items' hf.2 hg.2⟩
  | [], _ :: _, h, _ => by simp [mapSeq] at h
  | _ :: _, [], h, _ => by simp [mapSeq] at h

theorem mapFields_pair_eq {f : α → β} {g : α → γ} : (fields fields' : List (κ × KeyedTree κ α)) →
    mapFields f fields = mapFields f fields' → mapFields g fields = mapFields g fields' →
      mapFields (fun a => (f a, g a)) fields = mapFields (fun a => (f a, g a)) fields'
  | [], [], _, _ => rfl
  | (k, t) :: fields, (k', u) :: fields', hf, hg => by
    simp only [mapFields, List.cons.injEq, Prod.mk.injEq] at hf hg ⊢
    exact ⟨⟨hf.1.1, map_pair_eq t u hf.1.2 hg.1.2⟩, mapFields_pair_eq fields fields' hf.2 hg.2⟩
  | [], _ :: _, h, _ => by simp [mapFields] at h
  | _ :: _, [], h, _ => by simp [mapFields] at h
end

/-! ## Fields in the order of their keys -/

section Sorted

variable [LinearOrder κ]

mutual
/-- The tree with the fields of every object in the order of their keys -/
def sorted : KeyedTree κ α → KeyedTree κ α
  | leaf a => leaf a
  | seq items => seq (sortedSeq items)
  | obj fields => obj (Sorting.sortedBy Prod.fst (sortedFields fields))

def sortedSeq : List (KeyedTree κ α) → List (KeyedTree κ α)
  | [] => []
  | t :: items => sorted t :: sortedSeq items

def sortedFields : List (κ × KeyedTree κ α) → List (κ × KeyedTree κ α)
  | [] => []
  | (k, t) :: fields => (k, sorted t) :: sortedFields fields
end

mutual
theorem sorted_map (f : α → β) : (t : KeyedTree κ α) → (t.map f).sorted = t.sorted.map f
  | leaf a => rfl
  | seq items => congrArg seq (sortedSeq_map f items)
  | obj fields => by
    simp only [map, sorted, obj.injEq]
    rw [sortedFields_map f fields, mapFields_eq, mapFields_eq]
    exact (Sorting.map_sortedBy (fun p : κ × KeyedTree κ α => (p.1, p.2.map f)) Prod.fst
      (sortedFields fields)).symm

theorem sortedSeq_map (f : α → β) : (items : List (KeyedTree κ α)) →
    sortedSeq (mapSeq f items) = mapSeq f (sortedSeq items)
  | [] => rfl
  | t :: items => by
    simp only [mapSeq, sortedSeq, sorted_map f t, sortedSeq_map f items]

theorem sortedFields_map (f : α → β) : (fields : List (κ × KeyedTree κ α)) →
    sortedFields (mapFields f fields) = mapFields f (sortedFields fields)
  | [] => rfl
  | (k, t) :: fields => by
    simp only [mapFields, sortedFields, sorted_map f t, sortedFields_map f fields]
end

mutual
theorem mem_leaves_sorted {a : α} : (t : KeyedTree κ α) → (a ∈ t.sorted.leaves ↔ a ∈ t.leaves)
  | leaf _ => Iff.rfl
  | seq items => mem_seqLeaves_sorted items
  | obj fields => by
    simp only [sorted, leaves]
    rw [mem_fieldLeaves, ← mem_fieldLeaves_sorted fields, mem_fieldLeaves]
    simp only [Sorting.mem_sortedBy]

theorem mem_seqLeaves_sorted {a : α} : (items : List (KeyedTree κ α)) →
    (a ∈ seqLeaves (sortedSeq items) ↔ a ∈ seqLeaves items)
  | [] => Iff.rfl
  | t :: items => by
    simp only [sortedSeq, seqLeaves, List.mem_append, mem_leaves_sorted t, mem_seqLeaves_sorted items]

theorem mem_fieldLeaves_sorted {a : α} : (fields : List (κ × KeyedTree κ α)) →
    (a ∈ fieldLeaves (sortedFields fields) ↔ a ∈ fieldLeaves fields)
  | [] => Iff.rfl
  | (k, t) :: fields => by
    simp only [sortedFields, fieldLeaves, List.mem_append, mem_leaves_sorted t,
      mem_fieldLeaves_sorted fields]
end

mutual
theorem mem_keys_sorted {k : κ} : (t : KeyedTree κ α) → (k ∈ t.sorted.keys ↔ k ∈ t.keys)
  | leaf _ => Iff.rfl
  | seq items => mem_seqKeys_sorted items
  | obj fields => by
    simp only [sorted, keys]
    rw [mem_fieldKeys, ← mem_fieldKeys_sorted fields, mem_fieldKeys]
    simp only [Sorting.mem_sortedBy]

theorem mem_seqKeys_sorted {k : κ} : (items : List (KeyedTree κ α)) →
    (k ∈ seqKeys (sortedSeq items) ↔ k ∈ seqKeys items)
  | [] => Iff.rfl
  | t :: items => by
    simp only [sortedSeq, seqKeys, List.mem_append, mem_keys_sorted t, mem_seqKeys_sorted items]

theorem mem_fieldKeys_sorted {k : κ} : (fields : List (κ × KeyedTree κ α)) →
    (k ∈ fieldKeys (sortedFields fields) ↔ k ∈ fieldKeys fields)
  | [] => Iff.rfl
  | (_, t) :: fields => by
    simp only [sortedFields, fieldKeys, List.cons_append, List.mem_cons, List.mem_append,
      mem_keys_sorted t, mem_fieldKeys_sorted fields]
end

theorem sortedFields_eq (fields : List (κ × KeyedTree κ α)) :
    sortedFields fields = fields.map (fun p => (p.1, p.2.sorted)) := by
  induction fields with
  | nil => rfl
  | cons p fields ih =>
    obtain ⟨k, t⟩ := p
    simp only [sortedFields, ih, List.map_cons]

omit [LinearOrder κ] in
theorem distinctFields_iff {fields : List (κ × KeyedTree κ α)} :
    DistinctFields fields ↔ ∀ p ∈ fields, p.2.Distinct := by
  induction fields with
  | nil => simp [DistinctFields]
  | cons p fields ih =>
    obtain ⟨k, t⟩ := p
    simp only [DistinctFields, ih, List.forall_mem_cons]

mutual
theorem Distinct.sorted : (t : KeyedTree κ α) → t.Distinct → t.sorted.Distinct
  | leaf _, _ => trivial
  | seq items, h => DistinctSeq.sorted items h
  | obj fields, h => by
    have hperm := Sorting.sortedBy_perm Prod.fst (sortedFields fields)
    refine ⟨?_, distinctFields_iff.mpr fun p hp => ?_⟩
    · rw [(hperm.map Prod.fst).nodup_iff, sortedFields_eq, List.map_map]
      exact h.1
    · exact distinctFields_iff.mp (DistinctFields.sorted fields h.2) p (hperm.mem_iff.mp hp)

theorem DistinctSeq.sorted : (items : List (KeyedTree κ α)) → DistinctSeq items →
    DistinctSeq (sortedSeq items)
  | [], _ => trivial
  | t :: items, h => ⟨Distinct.sorted t h.1, DistinctSeq.sorted items h.2⟩

theorem DistinctFields.sorted : (fields : List (κ × KeyedTree κ α)) → DistinctFields fields →
    DistinctFields (sortedFields fields)
  | [], _ => trivial
  | (_, t) :: fields, h => ⟨Distinct.sorted t h.1, DistinctFields.sorted fields h.2⟩
end

theorem sorted_obj_perm {fields fields' : List (κ × KeyedTree κ α)}
    (hnodup : (fields.map Prod.fst).Nodup) (h : fields.Perm fields') :
    (obj fields).sorted = (obj fields').sorted := by
  have hkeys : ((sortedFields fields).map Prod.fst).Nodup := by
    rw [sortedFields_eq, List.map_map]
    exact hnodup
  have hperm : (sortedFields fields).Perm (sortedFields fields') := by
    rw [sortedFields_eq, sortedFields_eq]
    exact h.map _
  exact congrArg obj (Sorting.sortedBy_congr_perm hperm (.of_nodup hkeys))

/-- Trees are the same under a map, but for the order of their fields. -/
def SameBy (f : α → β) (t u : KeyedTree κ α) : Prop :=
  (t.map f).sorted = (u.map f).sorted

/-- Two maps that identify the same leaves of one kind identify the same trees of one shape. -/
theorem SameBy.imp {δ : Type} {kind : α → δ} {f : α → β} {g : α → γ} {t u : KeyedTree κ α}
    (hkind : SameBy kind t u) (h : SameBy f t u)
    (hfg : ∀ a ∈ t.leaves, ∀ b ∈ u.leaves, kind a = kind b → f a = f b → g a = g b) :
    SameBy g t u := by
  unfold SameBy at *
  rw [sorted_map, sorted_map] at *
  refine map_eq_of_map_eq (f := fun a => (kind a, f a)) _ _ (fun a ha b hb hpair => ?_)
    (map_pair_eq _ _ hkind h)
  exact hfg a ((mem_leaves_sorted t).mp ha) b ((mem_leaves_sorted u).mp hb)
    (Prod.mk.inj hpair).1 (Prod.mk.inj hpair).2

end Sorted

end KeyedTree
