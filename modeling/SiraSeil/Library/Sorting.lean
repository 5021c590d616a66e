-- SUMMARY: Stable sorting by a key and sorted duplicate-free lists, with the laws that make a sorted result independent of the order of its input.
import Mathlib.Data.List.Sort
import Mathlib.Data.List.Dedup

/-!
# Sorting

`sortedBy key l` is the stable sort of `l` by `key`; `sortedSet l` lists the
elements of `l` once each, in increasing order. A program that only ever reads a
collection through one of the two cannot observe the order in which the
collection was written down, provided the key identifies the elements. The
lemmas of this file say so.
-/

namespace Sorting

variable {α κ : Type*}

/-- The key tells the elements of `l` apart. -/
def KeyOn (key : α → κ) (l : List α) : Prop :=
  ∀ a ∈ l, ∀ b ∈ l, key a = key b → a = b

variable {key : α → κ} {l l' : List α}

theorem KeyOn.of_nodup (h : (l.map key).Nodup) : KeyOn key l := by
  intro a ha b hb hab
  exact List.inj_on_of_nodup_map h ha hb hab

theorem KeyOn.filter (h : KeyOn key l) (p : α → Bool) : KeyOn key (l.filter p) := by
  intro a ha b hb hab
  exact h a (List.mem_of_mem_filter ha) b (List.mem_of_mem_filter hb) hab

theorem flatMap_filter_perm [DecidableEq κ] {ks : List κ} (hks : ks.Nodup)
    (hl : ∀ a ∈ l, key a ∈ ks) : (ks.flatMap (fun k => l.filter (fun a => key a = k))).Perm l := by
  induction ks generalizing l with
  | nil =>
    have hnil : l = [] := List.eq_nil_iff_forall_not_mem.mpr (fun a ha => by cases hl a ha)
    simp [hnil]
  | cons k ks ih =>
    obtain ⟨hk, hks⟩ := List.nodup_cons.mp hks
    -- The groups of the other keys are those of the elements without `k`.
    have hothers : ks.flatMap (fun k' => l.filter (fun a => key a = k')) =
        ks.flatMap (fun k' => (l.filter (fun a => ¬ key a = k)).filter (fun a => key a = k')) := by
      refine List.flatMap_congr (fun k' hk' => ?_)
      rw [List.filter_filter]
      refine List.filter_congr (fun a _ => ?_)
      have hne : k' ≠ k := fun heq => hk (heq ▸ hk')
      by_cases ha : key a = k'
      · simp [ha, hne]
      · simp [ha]
    have htail := ih hks (l := l.filter (fun a => ¬ key a = k)) (fun a ha => by
      obtain ⟨hmem, hne⟩ := List.mem_filter.mp ha
      exact (List.mem_cons.mp (hl a hmem)).resolve_left (by simpa using hne))
    rw [List.flatMap_cons, hothers]
    refine (List.Perm.append_left _ htail).trans ?_
    simpa using List.filter_append_perm (fun a => decide (key a = k)) l

variable [LinearOrder κ]

/-- Stable sort by a key: elements with equal keys keep their relative order. -/
def sortedBy (key : α → κ) (l : List α) : List α :=
  l.insertionSort (fun a b => key a ≤ key b)

theorem sortedBy_perm (key : α → κ) (l : List α) : (sortedBy key l).Perm l :=
  List.perm_insertionSort _ l

@[simp] theorem mem_sortedBy {a : α} : a ∈ sortedBy key l ↔ a ∈ l :=
  (sortedBy_perm key l).mem_iff

@[simp] theorem length_sortedBy (key : α → κ) (l : List α) :
    (sortedBy key l).length = l.length :=
  (sortedBy_perm key l).length_eq

@[simp] theorem sortedBy_eq_nil : sortedBy key l = [] ↔ l = [] := by
  rw [← List.length_eq_zero_iff, length_sortedBy, List.length_eq_zero_iff]

theorem sortedBy_pairwise (key : α → κ) (l : List α) :
    (sortedBy key l).Pairwise (fun a b => key a ≤ key b) := by
  have : Std.Total (fun a b : α => key a ≤ key b) := ⟨fun a b => le_total (key a) (key b)⟩
  have : IsTrans α (fun a b : α => key a ≤ key b) := ⟨fun _ _ _ h₁ h₂ => le_trans h₁ h₂⟩
  exact List.pairwise_insertionSort _ l

theorem sortedBy_of_pairwise (h : l.Pairwise (fun a b => key a ≤ key b)) : sortedBy key l = l :=
  List.Pairwise.insertionSort_eq h

/-- Two rearrangements of one list, both sorted by a key that identifies their
elements, are the same list. -/
theorem eq_of_perm_of_pairwise (hp : l.Perm l') (hk : KeyOn key l)
    (h : l.Pairwise (fun a b => key a ≤ key b))
    (h' : l'.Pairwise (fun a b => key a ≤ key b)) : l = l' := by
  refine List.Perm.eq_of_pairwise ?_ h h' hp
  intro a b ha hb hab hba
  exact hk a ha b (hp.mem_iff.mpr hb) (le_antisymm hab hba)

theorem sortedBy_congr_perm (hp : l.Perm l') (hk : KeyOn key l) :
    sortedBy key l = sortedBy key l' := by
  have hperm : (sortedBy key l).Perm (sortedBy key l') :=
    (sortedBy_perm key l).trans (hp.trans (sortedBy_perm key l').symm)
  refine eq_of_perm_of_pairwise hperm ?_ (sortedBy_pairwise key l) (sortedBy_pairwise key l')
  intro a ha b hb hab
  exact hk a (mem_sortedBy.mp ha) b (mem_sortedBy.mp hb) hab

theorem sortedBy_append_congr {m m' : List α} (h : sortedBy key m = sortedBy key m') :
    sortedBy key (l ++ m) = sortedBy key (l ++ m') := by
  induction l with
  | nil => simpa using h
  | cons a l ih =>
    simp only [sortedBy, List.cons_append, List.insertionSort_cons] at ih ⊢
    rw [ih]

/-- An element is among the first ones, or these are as many as asked for and come before it. -/
theorem mem_take_sortedBy_or {a : α} (ha : a ∈ l) (n : ℕ) :
    a ∈ (sortedBy key l).take n ∨
      ((sortedBy key l).take n).length = n ∧ ∀ b ∈ (sortedBy key l).take n, key b ≤ key a := by
  have hsplit := List.take_append_drop n (sortedBy key l)
  have hmem : a ∈ (sortedBy key l).take n ++ (sortedBy key l).drop n := by
    rw [hsplit, mem_sortedBy]
    exact ha
  rcases List.mem_append.mp hmem with hfirst | hlater
  · exact .inl hfirst
  · right
    have hpairwise := sortedBy_pairwise key l
    rw [← hsplit, List.pairwise_append] at hpairwise
    have hlong : n ≤ (sortedBy key l).length := by
      by_contra hshort
      rw [List.drop_eq_nil_of_le (Nat.le_of_lt (Nat.lt_of_not_le hshort))] at hlater
      exact absurd hlater List.not_mem_nil
    exact ⟨List.length_take_of_le hlong, fun b hb => hpairwise.2.2 b hb a hlater⟩

theorem filter_sortedBy (hk : KeyOn key l) (p : α → Bool) :
    (sortedBy key l).filter p = sortedBy key (l.filter p) := by
  have hperm : ((sortedBy key l).filter p).Perm (sortedBy key (l.filter p)) :=
    ((sortedBy_perm key l).filter p).trans (sortedBy_perm key (l.filter p)).symm
  refine eq_of_perm_of_pairwise hperm ?_ ((sortedBy_pairwise key l).filter p)
    (sortedBy_pairwise key _)
  intro a ha b hb hab
  exact hk a (mem_sortedBy.mp (List.mem_of_mem_filter ha)) b
    (mem_sortedBy.mp (List.mem_of_mem_filter hb)) hab

theorem map_sortedBy {β : Type*} (f : α → β) (key : β → κ) (l : List α) :
    (sortedBy (fun a => key (f a)) l).map f = sortedBy key (l.map f) :=
  List.map_insertionSort _ _ f l (fun _ _ _ _ => Iff.rfl)

theorem sortedBy_congr_key {key' : α → κ} (h : ∀ a ∈ l, key a = key' a) :
    sortedBy key l = sortedBy key' l := by
  have hmap := List.map_insertionSort (fun a b : α => key a ≤ key b)
    (fun a b : α => key' a ≤ key' b) id l
    (fun a ha b hb => by rw [h a ha, h b hb]; rfl)
  rw [List.map_id, List.map_id] at hmap
  exact hmap

/-- Two lists with the same keys at the same places are sorted alike: what agrees
along the sorted lists agreed along the lists. -/
theorem map_eq_of_sortedBy {β : Type*} {g : α → β} (hkeys : l.map key = l'.map key)
    (hsorted : (sortedBy key l).map g = (sortedBy key l').map g) : l.map g = l'.map g := by
  have hlength : l.length = l'.length := by
    rw [← List.length_map key, hkeys, List.length_map]
  obtain ⟨z, rfl, rfl⟩ : ∃ z : List (α × α), z.map Prod.fst = l ∧ z.map Prod.snd = l' :=
    ⟨l.zip l', List.map_fst_zip hlength.le, List.map_snd_zip hlength.ge⟩
  rw [List.map_map, List.map_map] at hkeys ⊢
  have hsame : ∀ p ∈ z, key p.1 = key p.2 := List.map_inj_left.mp hkeys
  rw [← map_sortedBy, ← map_sortedBy, sortedBy_congr_key hsame, List.map_map,
    List.map_map] at hsorted
  refine List.map_inj_left.mpr (fun p hp => ?_)
  exact List.map_inj_left.mp hsorted p (mem_sortedBy.mpr hp)

/-- The elements of a list, once each, in increasing order. -/
def sortedSet (l : List κ) : List κ :=
  sortedBy id l.dedup

@[simp] theorem mem_sortedSet {l : List κ} {a : κ} : a ∈ sortedSet l ↔ a ∈ l := by
  simp [sortedSet]

theorem sortedSet_nodup (l : List κ) : (sortedSet l).Nodup :=
  (sortedBy_perm id l.dedup).nodup_iff.mpr l.nodup_dedup

theorem sortedSet_pairwise_lt (l : List κ) : (sortedSet l).Pairwise (· < ·) := by
  have hle : (sortedSet l).Pairwise (· ≤ ·) := sortedBy_pairwise id l.dedup
  exact (hle.and (sortedSet_nodup l)).imp (fun h => lt_of_le_of_ne h.1 h.2)

@[simp] theorem sortedSet_eq_nil {l : List κ} : sortedSet l = [] ↔ l = [] := by
  constructor
  · intro h
    refine List.eq_nil_iff_forall_not_mem.mpr (fun a ha => ?_)
    have : a ∈ sortedSet l := mem_sortedSet.mpr ha
    simp [h] at this
  · rintro rfl
    rfl

theorem eq_of_pairwise_lt {l l' : List κ} (h : l.Pairwise (· < ·)) (h' : l'.Pairwise (· < ·))
    (hmem : ∀ a, a ∈ l ↔ a ∈ l') : l = l' :=
  List.Pairwise.eq_of_mem_iff h h' (fun {a} => hmem a)

theorem sublist_of_subset {l l' : List κ} (h : l.Pairwise (· < ·)) (h' : l'.Pairwise (· < ·))
    (hsub : l ⊆ l') : l.Sublist l' := by
  have hnodup : l.Nodup := h.imp (fun hlt => hlt.ne)
  exact List.sublist_of_subperm_of_pairwise (List.subperm_of_subset hnodup hsub) h h'

theorem sortedSet_congr {l l' : List κ} (h : ∀ a, a ∈ l ↔ a ∈ l') : sortedSet l = sortedSet l' :=
  eq_of_pairwise_lt (sortedSet_pairwise_lt l) (sortedSet_pairwise_lt l') (by simpa using h)

/-- The first element of `a :: l` with the least key. -/
def firstMin (key : α → κ) (a : α) (l : List α) : α :=
  l.foldl (fun best x => if key x < key best then x else best) a

/-- The first element of `a :: l` with the greatest key. -/
def firstMax (key : α → κ) (a : α) (l : List α) : α :=
  l.foldl (fun best x => if key best < key x then x else best) a

theorem firstMin_spec (key : α → κ) (a : α) (l : List α) :
    firstMin key a l ∈ a :: l ∧ ∀ x ∈ a :: l, key (firstMin key a l) ≤ key x := by
  induction l generalizing a with
  | nil => simp [firstMin]
  | cons b l ih =>
    simp only [firstMin, List.foldl_cons]
    split
    · rename_i hba
      obtain ⟨hmem, hle⟩ := ih b
      refine ⟨List.mem_cons_of_mem a hmem, ?_⟩
      intro x hx
      rcases List.mem_cons.mp hx with rfl | hx
      · exact (hle b List.mem_cons_self).trans hba.le
      · exact hle x hx
    · rename_i hba
      obtain ⟨hmem, hle⟩ := ih a
      refine ⟨?_, ?_⟩
      · rcases List.mem_cons.mp hmem with h | h
        · exact List.mem_cons.mpr (Or.inl h)
        · exact List.mem_cons_of_mem a (List.mem_cons_of_mem b h)
      · intro x hx
        rcases List.mem_cons.mp hx with rfl | hx
        · exact hle x List.mem_cons_self
        · rcases List.mem_cons.mp hx with rfl | hx
          · exact (hle a List.mem_cons_self).trans (not_lt.mp hba)
          · exact hle x (List.mem_cons_of_mem a hx)

theorem firstMax_spec (key : α → κ) (a : α) (l : List α) :
    firstMax key a l ∈ a :: l ∧ ∀ x ∈ a :: l, key x ≤ key (firstMax key a l) :=
  firstMin_spec (κ := κᵒᵈ) key a l

end Sorting

/-- A tuple kept sorted and free of duplicates. -/
structure SortedTuple (κ : Type*) [LinearOrder κ] where
  items : List κ
  sorted : items.Pairwise (· < ·)
  deriving DecidableEq

namespace SortedTuple

variable {κ : Type*} [LinearOrder κ]

/-- Every list has its sorted duplicate-free tuple. -/
def of (l : List κ) : SortedTuple κ :=
  ⟨Sorting.sortedSet l, Sorting.sortedSet_pairwise_lt l⟩

/-- The tuple with further elements added. -/
def union (t : SortedTuple κ) (l : List κ) : SortedTuple κ :=
  of (t.items ++ l)

@[simp] theorem mem_items_of {l : List κ} {a : κ} : a ∈ (of l).items ↔ a ∈ l :=
  Sorting.mem_sortedSet

@[simp] theorem mem_items_union {t : SortedTuple κ} {l : List κ} {a : κ} :
    a ∈ (t.union l).items ↔ a ∈ t.items ∨ a ∈ l := by
  simp [union]

theorem ext_mem {t t' : SortedTuple κ} (h : ∀ a, a ∈ t.items ↔ a ∈ t'.items) : t = t' := by
  obtain ⟨items, sorted⟩ := t
  obtain ⟨items', sorted'⟩ := t'
  have hitems : items = items' := Sorting.eq_of_pairwise_lt sorted sorted' h
  subst hitems
  rfl

end SortedTuple
