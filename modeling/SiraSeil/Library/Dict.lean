-- SUMMARY: Insertion-ordered dictionaries with last-write-wins construction, and when a dictionary does not depend on the order of the writes.
import SiraSeil.Library.Sorting
import Mathlib.Data.List.Induction

/-!
# Dictionaries

A dictionary as scripting languages have it: a finite map whose items keep the
position of their first insertion, while a later write to the same key replaces
the value. `Dict.ofList` is the dictionary comprehension.
-/

structure Dict (κ α : Type*) where
  items : List (κ × α)
  nodup : (items.map Prod.fst).Nodup

namespace Dict

variable {κ α β : Type*} [DecidableEq κ]

def empty : Dict κ α := ⟨[], List.nodup_nil⟩

def get? (d : Dict κ α) (k : κ) : Option α :=
  d.items.lookup k

def contains (d : Dict κ α) (k : κ) : Bool :=
  (d.get? k).isSome

/-- The items with the value of `k` replaced. -/
def overwrite (k : κ) (v : α) (items : List (κ × α)) : List (κ × α) :=
  items.map (fun p => if p.1 = k then (k, v) else p)

theorem map_fst_overwrite (k : κ) (v : α) (items : List (κ × α)) :
    (overwrite k v items).map Prod.fst = items.map Prod.fst := by
  simp only [overwrite, List.map_map]
  refine List.map_congr_left (fun p _ => ?_)
  by_cases h : p.1 = k <;> simp [h]

theorem overwrite_cons (k : κ) (v : α) (p : κ × α) (items : List (κ × α)) :
    overwrite k v (p :: items) = (if p.1 = k then (k, v) else p) :: overwrite k v items := rfl

variable {k : κ} {items l : List (κ × α)} {v : α}

theorem lookup_overwrite_self (v : α)
    (h : k ∈ items.map Prod.fst) : (overwrite k v items).lookup k = some v := by
  induction items with
  | nil => cases h
  | cons p items ih =>
    obtain ⟨a, w⟩ := p
    rw [overwrite_cons]
    by_cases ha : a = k
    · simp [ha]
    · have hne : (k == a) = false := beq_false_of_ne (fun hk => ha hk.symm)
      have hmem := (List.mem_cons.mp h).resolve_left (fun hk => ha hk.symm)
      rw [if_neg ha, List.lookup_cons, hne]
      exact ih hmem

theorem lookup_overwrite_of_ne {k' : κ} (hk : k' ≠ k) (v : α) (items : List (κ × α)) :
    (overwrite k v items).lookup k' = items.lookup k' := by
  induction items with
  | nil => rfl
  | cons p items ih =>
    obtain ⟨a, w⟩ := p
    rw [overwrite_cons, List.lookup_cons, ih]
    by_cases ha : a = k
    · subst ha
      rw [if_pos rfl, List.lookup_cons, beq_false_of_ne hk]
    · rw [if_neg ha, List.lookup_cons]

def set (d : Dict κ α) (k : κ) (v : α) : Dict κ α :=
  if h : k ∈ d.items.map Prod.fst then
    ⟨overwrite k v d.items, by rw [map_fst_overwrite]; exact d.nodup⟩
  else
    ⟨d.items ++ [(k, v)], by
      rw [List.map_append]
      exact List.Nodup.append d.nodup (by simp) (by simpa using h)⟩

def ofList (l : List (κ × α)) : Dict κ α :=
  l.foldl (fun d p => d.set p.1 p.2) empty

/-- The items in the order of their keys. -/
def sortedItems [LinearOrder β] (d : Dict β α) : List (β × α) :=
  Sorting.sortedBy Prod.fst d.items

/-! ## Reading -/

theorem lookup_eq_some_iff (h : (items.map Prod.fst).Nodup) :
    items.lookup k = some v ↔ (k, v) ∈ items := by
  induction items with
  | nil => simp
  | cons p items ih =>
    obtain ⟨k', v'⟩ := p
    simp only [List.map_cons, List.nodup_cons] at h
    by_cases hk : k = k'
    · subst hk
      have hnot : (k, v) ∉ items := fun hmem => h.1 (List.mem_map_of_mem hmem)
      simp [hnot, eq_comm]
    · have hb : (k == k') = false := by simpa using hk
      simp [List.lookup_cons, hb, ih h.2, hk]

theorem get?_eq_some_iff {d : Dict κ α} : d.get? k = some v ↔ (k, v) ∈ d.items :=
  lookup_eq_some_iff d.nodup

theorem get?_eq_none_iff {d : Dict κ α} : d.get? k = none ↔ k ∉ d.items.map Prod.fst := by
  rw [Option.eq_none_iff_forall_ne_some]
  simp only [ne_eq, get?_eq_some_iff, List.mem_map, not_exists, not_and, Prod.forall]
  exact ⟨fun h a b hmem hak => h b (hak ▸ hmem), fun h v hmem => h k v hmem rfl⟩

theorem get?_set (d : Dict κ α) (k k' : κ) (v : α) :
    (d.set k v).get? k' = if k' = k then some v else d.get? k' := by
  by_cases hk : k ∈ d.items.map Prod.fst
  · refine Option.ext (fun w => ?_)
    rw [get?_eq_some_iff]
    simp only [set, hk, ↓reduceDIte, overwrite, List.mem_map]
    constructor
    · rintro ⟨p, hp, hpw⟩
      by_cases hpk : p.1 = k
      · simp only [hpk, ↓reduceIte, Prod.mk.injEq] at hpw
        simp [hpw.1, hpw.2]
      · simp only [hpk, ↓reduceIte] at hpw
        subst hpw
        simpa [hpk, get?_eq_some_iff] using hp
    · intro hw
      by_cases hkk : k' = k
      · obtain ⟨p, hp, hpk⟩ := List.mem_map.mp hk
        refine ⟨p, hp, ?_⟩
        simp only [hkk, ↓reduceIte, Option.some.injEq] at hw
        simp [hpk, hkk, hw]
      · simp only [hkk, ↓reduceIte, get?_eq_some_iff] at hw
        exact ⟨(k', w), hw, by simp [hkk]⟩
  · refine Option.ext (fun w => ?_)
    rw [get?_eq_some_iff]
    simp only [set, hk, ↓reduceDIte, List.mem_append, List.mem_singleton, Prod.mk.injEq]
    by_cases hkk : k' = k
    · subst hkk
      have hnot : (k', w) ∉ d.items := fun hmem => hk (List.mem_map_of_mem hmem)
      simp [hnot, eq_comm]
    · simp [hkk, get?_eq_some_iff]

theorem ofList_concat (l : List (κ × α)) (p : κ × α) :
    ofList (l ++ [p]) = (ofList l).set p.1 p.2 := by
  simp [ofList]

theorem items_ofList_of_nodup (h : (l.map Prod.fst).Nodup) : (ofList l).items = l := by
  induction l using List.reverseRecOn with
  | nil => rfl
  | append_singleton l p ih =>
    rw [List.map_append, List.nodup_append] at h
    obtain ⟨hl, -, hdisjoint⟩ := h
    have hnew : p.1 ∉ (ofList l).items.map Prod.fst := by
      rw [ih hl]
      exact fun hmem => hdisjoint _ hmem p.1 (List.mem_singleton_self _) rfl
    rw [ofList_concat]
    unfold set
    rw [dif_neg hnew]
    exact congrArg (· ++ [p]) (ih hl)

theorem get?_ofList (l : List (κ × α)) (k : κ) : (ofList l).get? k = l.reverse.lookup k := by
  induction l using List.reverseRecOn with
  | nil => rfl
  | append_singleton l p ih =>
    obtain ⟨k', v'⟩ := p
    rw [ofList_concat, get?_set, ih, List.reverse_append, List.reverse_singleton,
      List.singleton_append, List.lookup_cons]
    by_cases hk : k = k'
    · simp [hk]
    · have hb : (k == k') = false := by simpa using hk
      simp [hk, hb]

theorem get?_ofList_map {β : Type*} (g : α → β) (l : List (κ × α)) (k : κ) :
    (ofList (l.map (fun p => (p.1, g p.2)))).get? k = ((ofList l).get? k).map g := by
  induction l using List.reverseRecOn with
  | nil => rfl
  | append_singleton l p ih =>
    rw [List.map_append, List.map_singleton, ofList_concat, ofList_concat, get?_set, get?_set, ih]
    split
    · rfl
    · rfl

theorem mem_keys_ofList : k ∈ (ofList l).items.map Prod.fst ↔ k ∈ l.map Prod.fst := by
  rw [← not_iff_not, ← get?_eq_none_iff, get?_ofList]
  simp only [List.lookup_eq_none_iff, List.mem_reverse, List.mem_map, not_exists, not_and,
    bne_iff_ne, ne_eq]
  exact ⟨fun h p hp hpk => h p hp hpk.symm, fun h p hp hpk => h p hp hpk.symm⟩

/-! ## Independence of the order of the writes -/

/-- The writes to a key agree. -/
def ConsistentAt (l : List (κ × α)) (k : κ) : Prop :=
  ∀ p ∈ l, ∀ q ∈ l, p.1 = k → q.1 = k → p.2 = q.2

omit [DecidableEq κ] in
theorem ConsistentAt.of_nodup (h : (l.map Prod.fst).Nodup) (k : κ) : ConsistentAt l k := by
  intro p hp q hq hpk hqk
  exact congrArg Prod.snd (List.inj_on_of_nodup_map h hp hq (hpk.trans hqk.symm))

theorem mem_of_get?_ofList (h : (ofList l).get? k = some v) : (k, v) ∈ l := by
  rw [get?_ofList] at h
  obtain ⟨l₁, l₂, hl, -⟩ := List.lookup_eq_some_iff.mp h
  have hmem : (k, v) ∈ l.reverse := by simp [hl]
  exact List.mem_reverse.mp hmem

theorem get?_ofList_eq_some_iff (hc : ConsistentAt l k) :
    (ofList l).get? k = some v ↔ (k, v) ∈ l := by
  refine ⟨mem_of_get?_ofList, fun hmem => ?_⟩
  have hkey : k ∈ (ofList l).items.map Prod.fst :=
    mem_keys_ofList.mpr (List.mem_map_of_mem hmem)
  cases hget : (ofList l).get? k with
  | none => exact absurd hkey (get?_eq_none_iff.mp hget)
  | some w =>
    have hwv : w = v := hc _ (mem_of_get?_ofList hget) _ hmem rfl rfl
    rw [hwv]

theorem get?_ofList_key {β : Type*} {key : β → κ} {f : β → α} {rows : List β}
    (h : (rows.map key).Nodup) :
    (ofList (rows.map (fun b => (key b, f b)))).get? k = some v ↔
      ∃ b ∈ rows, key b = k ∧ f b = v := by
  have hkeys : ((rows.map (fun b => (key b, f b))).map Prod.fst).Nodup := by
    rwa [List.map_map]
  rw [get?_ofList_eq_some_iff (.of_nodup hkeys k)]
  simp [List.mem_map]

theorem get?_ofList_perm {l' : List (κ × α)} (h : l.Perm l') (hc : ConsistentAt l k) :
    (ofList l).get? k = (ofList l').get? k := by
  have hc' : ConsistentAt l' k :=
    fun p hp q hq => hc p (h.mem_iff.mpr hp) q (h.mem_iff.mpr hq)
  refine Option.ext (fun v => ?_)
  rw [get?_ofList_eq_some_iff hc, get?_ofList_eq_some_iff hc', h.mem_iff]

/-! ## Restriction to some keys -/

theorem filter_overwrite (q : κ → Bool) (k : κ) (v : α) (items : List (κ × α)) :
    (overwrite k v items).filter (fun p => q p.1) =
      overwrite k v (items.filter (fun p => q p.1)) := by
  have hkey : ∀ p : κ × α, (if p.1 = k then (k, v) else p).1 = p.1 := by
    intro p
    split
    · exact Eq.symm ‹p.1 = k›
    · rfl
  unfold overwrite
  rw [List.filter_map]
  simp only [Function.comp_def, hkey]

theorem overwrite_of_not_mem (h : k ∉ items.map Prod.fst) : overwrite k v items = items := by
  unfold overwrite
  conv_rhs => rw [← List.map_id items]
  refine List.map_congr_left (fun p hp => ?_)
  have hne : p.1 ≠ k := fun heq => h (heq ▸ List.mem_map_of_mem hp)
  rw [if_neg hne]
  rfl

omit [DecidableEq κ] in
theorem mem_keys_filter {q : κ → Bool} :
    k ∈ (items.filter (fun p => q p.1)).map Prod.fst ↔ q k = true ∧ k ∈ items.map Prod.fst := by
  simp only [List.mem_map, List.mem_filter]
  constructor
  · rintro ⟨p, ⟨hp, hq⟩, rfl⟩
    exact ⟨hq, p, hp, rfl⟩
  · rintro ⟨hq, p, hp, rfl⟩
    exact ⟨p, ⟨hp, hq⟩, rfl⟩

theorem items_ofList_filter (q : κ → Bool) (l : List (κ × α)) :
    (ofList (l.filter (fun p => q p.1))).items = (ofList l).items.filter (fun p => q p.1) := by
  induction l using List.reverseRecOn with
  | nil => rfl
  | append_singleton l p ih =>
    obtain ⟨k, v⟩ := p
    rw [ofList_concat, List.filter_append]
    cases hq : q k with
    | false =>
      have hout : k ∉ ((ofList l).items.filter (fun p => q p.1)).map Prod.fst := by
        rw [mem_keys_filter, hq]
        simp
      have hfilter : [(k, v)].filter (fun p => q p.1) = [] := by simp [hq]
      rw [hfilter, List.append_nil, ih]
      unfold set
      split
      · rw [filter_overwrite, overwrite_of_not_mem hout]
      · rw [List.filter_append, hfilter, List.append_nil]
    | true =>
      have hfilter : [(k, v)].filter (fun p => q p.1) = [(k, v)] := by simp [hq]
      have hkeys : k ∈ (ofList (l.filter (fun p => q p.1))).items.map Prod.fst ↔
          k ∈ (ofList l).items.map Prod.fst := by
        rw [ih, mem_keys_filter, hq]
        simp
      rw [hfilter, ofList_concat]
      unfold set
      by_cases hmem : k ∈ (ofList l).items.map Prod.fst
      · rw [dif_pos hmem, dif_pos (hkeys.mpr hmem), filter_overwrite, ← ih]
      · rw [dif_neg hmem, dif_neg (fun h => hmem (hkeys.mp h)), List.filter_append, hfilter, ← ih]

theorem get?_ofList_filter (q : κ → Bool) (hk : q k = true) (l : List (κ × α)) :
    (ofList (l.filter (fun p => q p.1))).get? k = (ofList l).get? k := by
  refine Option.ext (fun v => ?_)
  rw [get?_eq_some_iff, get?_eq_some_iff, items_ofList_filter, List.mem_filter]
  exact and_iff_left hk

end Dict
