-- SUMMARY: Tables as lists of rows with a key: updating the row of a key, distinct keys, and the latest row in an order.
import Mathlib.Data.List.Nodup
import Mathlib.Data.List.MinMax

/-!
# Tables

A table is the list of its rows in the order of their insertion. A key is a
function of the row; rows are changed through it.
-/

namespace Table

variable {ρ κ : Type} {key : ρ → κ} {rows : List ρ}

/-- Rows have pairwise distinct keys. -/
def Keyed (key : ρ → κ) (rows : List ρ) : Prop :=
  (rows.map key).Nodup

theorem keyed_nil : Keyed key [] :=
  List.nodup_nil

variable {a : ρ} {p : ρ → Bool}

theorem Keyed.eq (h : Keyed key rows) {b : ρ} (ha : a ∈ rows) (hb : b ∈ rows)
    (hkey : key a = key b) : a = b :=
  List.inj_on_of_nodup_map h ha hb hkey

theorem Keyed.append (h : Keyed key rows) (ha : ∀ b ∈ rows, key b ≠ key a) :
    Keyed key (rows ++ [a]) := by
  unfold Keyed
  rw [List.map_append, List.map_singleton, List.nodup_append]
  refine ⟨h, List.nodup_singleton _, ?_⟩
  intro x hx y hy
  obtain ⟨b, hb, rfl⟩ := List.mem_map.mp hx
  rw [List.mem_singleton.mp hy]
  exact ha b hb

theorem Keyed.filter (h : Keyed key rows) (p : ρ → Bool) : Keyed key (rows.filter p) :=
  List.Nodup.sublist (List.filter_sublist.map key) h

theorem Keyed.find?_eq (h : Keyed key rows) (ha : a ∈ rows) (hp : p a = true)
    (hkey : ∀ b ∈ rows, p b = true → key b = key a) : rows.find? p = some a := by
  cases hfind : rows.find? p with
  | none => exact absurd hp (List.find?_eq_none.mp hfind a ha)
  | some b =>
    have hb := List.mem_of_find?_eq_some hfind
    rw [h.eq hb ha (hkey b hb (List.find?_some hfind))]

theorem Keyed.filter_eq_singleton (h : Keyed key rows) (ha : a ∈ rows) (hp : p a = true)
    (honly : ∀ b ∈ rows, p b = true → b = a) : rows.filter p = [a] := by
  have hmem : ∀ b, b ∈ rows.filter p ↔ b ∈ [a] := by
    intro b
    rw [List.mem_filter, List.mem_singleton]
    constructor
    · rintro ⟨hb, hpb⟩
      exact honly b hb hpb
    · rintro rfl
      exact ⟨ha, hp⟩
  have hnodup : (rows.filter p).Nodup := List.Nodup.filter _ (List.Nodup.of_map key h)
  exact List.perm_singleton.mp ((List.perm_ext_iff_of_nodup hnodup (List.nodup_singleton a)).mpr hmem)

theorem filter_concat_of_not (h : p a = false) : (rows ++ [a]).filter p = rows.filter p := by
  rw [List.filter_append, List.filter_cons_of_neg (by simp [h]), List.filter_nil, List.append_nil]

/-! ## Updates -/

variable [DecidableEq κ]

/-- Change the row of a key. -/
def update (key : ρ → κ) (k : κ) (f : ρ → ρ) (rows : List ρ) : List ρ :=
  rows.map (fun r => if key r = k then f r else r)

variable {k : κ} {f : ρ → ρ}

theorem map_update {β : Type} {view : ρ → β} (hf : ∀ r, view (f r) = view r) :
    (update key k f rows).map view = rows.map view := by
  unfold update
  rw [List.map_map]
  refine List.map_congr_left (fun r _ => ?_)
  simp only [Function.comp]
  split
  · exact hf r
  · rfl

theorem Keyed.update {κ' : Type} {own : ρ → κ'} (h : Keyed own rows)
    (hf : ∀ r, own (f r) = own r) : Keyed own (update key k f rows) := by
  unfold Keyed
  rw [map_update hf]
  exact h

theorem Keyed.replace (h : Keyed key rows) (ha : key a = k) :
    Keyed key (Table.update key k (fun _ => a) rows) := by
  unfold Keyed Table.update
  rw [List.map_map]
  refine Eq.mpr (congrArg List.Nodup (List.map_congr_left (fun r _ => ?_))) h
  simp only [Function.comp]
  split
  · next hr => exact ha.trans hr.symm
  · rfl

theorem mem_update {r : ρ} :
    r ∈ update key k f rows ↔
      (∃ a ∈ rows, key a = k ∧ f a = r) ∨ (r ∈ rows ∧ key r ≠ k) := by
  unfold update
  rw [List.mem_map]
  constructor
  · rintro ⟨a, ha, har⟩
    split at har
    · next hk => exact .inl ⟨a, ha, hk, har⟩
    · next hk => exact .inr ⟨har ▸ ha, har ▸ hk⟩
  · rintro (⟨a, ha, hk, har⟩ | ⟨hr, hk⟩)
    · exact ⟨a, ha, by rw [if_pos hk, har]⟩
    · exact ⟨r, hr, by rw [if_neg hk]⟩

theorem exists_update {P : ρ → Prop} {r : ρ} (hr : r ∈ rows) (hsame : P r) (hf : key r = k → P (f r)) :
    ∃ r' ∈ update key k f rows, P r' := by
  by_cases hk : key r = k
  · exact ⟨f r, mem_update.mpr (.inl ⟨r, hr, hk, rfl⟩), hf hk⟩
  · exact ⟨r, mem_update.mpr (.inr ⟨hr, hk⟩), hsame⟩

theorem filter_update (hf : ∀ r, p (f r) = p r) :
    (update key k f rows).filter p = update key k f (rows.filter p) := by
  unfold update
  rw [List.filter_map]
  congr 1
  refine List.filter_congr (fun r _ => ?_)
  simp only [Function.comp]
  split
  · exact hf r
  · rfl

/-- An update changes what a search finds, if it does not disturb what is searched for. -/
theorem find?_update (hf : ∀ r, p (f r) = p r) :
    (update key k f rows).find? p =
      (rows.find? p).map (fun r => if key r = k then f r else r) := by
  unfold update
  rw [List.find?_map]
  congr 2
  funext r
  simp only [Function.comp]
  split
  · exact hf r
  · rfl

theorem filter_update_of_not (hf : ∀ r, p (f r) = p r)
    (hk : ∀ r ∈ rows, key r = k → p r = false) : (update key k f rows).filter p = rows.filter p := by
  rw [filter_update hf]
  unfold update
  rw [List.map_congr_left (g := id), List.map_id]
  intro r hr
  rw [List.mem_filter] at hr
  refine if_neg (fun hkey => ?_)
  rw [hk r hr.1 hkey] at hr
  cases hr.2

theorem Keyed.filter_update {κ' : Type} {own : ρ → κ'} (h : Keyed own (rows.filter p))
    (hf : ∀ r, own (f r) = own r)
    (hp : ∀ r, p (f r) = true → p r = true) : Keyed own ((Table.update key k f rows).filter p) := by
  have hsub : (((Table.update key k f rows).filter p).map own).Sublist
      ((rows.filter p).map own) := by
    clear h
    unfold Table.update
    induction rows with
    | nil => exact List.Sublist.refl _
    | cons r rows ih =>
      have hrow : own (if key r = k then f r else r) = own r ∧
          (p (if key r = k then f r else r) = true → p r = true) := by
        split
        · exact ⟨hf r, hp r⟩
        · exact ⟨rfl, id⟩
      rw [List.map_cons, List.filter_cons, List.filter_cons]
      generalize (if key r = k then f r else r) = r' at hrow ⊢
      split
      · next hselected =>
        rw [if_pos (hrow.2 hselected), List.map_cons, List.map_cons, hrow.1]
        exact ih.cons_cons _
      · split
        · exact ih.cons _
        · exact ih
  exact List.Nodup.sublist hsub h

theorem filter_update_eq_singleton (h : Keyed key rows) (ha : a ∈ rows)
    (hnone : ∀ r ∈ rows, p r = false) (hp : p (f a) = true) :
    (update key (key a) f rows).filter p = [f a] := by
  obtain ⟨before, later, rfl⟩ := List.append_of_mem ha
  have hother : ∀ r, r ∈ before ∨ r ∈ later → key r ≠ key a := by
    intro r hr heq
    unfold Keyed at h
    rw [List.map_append, List.map_cons, List.nodup_middle, List.nodup_cons, ← List.map_append] at h
    exact h.1 (List.mem_map.mpr ⟨r, List.mem_append.mpr hr, heq⟩)
  have hkeep : ∀ l : List ρ, (∀ r ∈ l, r ∈ before ∨ r ∈ later) →
      (update key (key a) f l).filter p = [] := by
    intro l hl
    rw [List.filter_eq_nil_iff]
    intro r hr
    rcases mem_update.mp hr with ⟨b, hb, hkey, -⟩ | ⟨hr, -⟩
    · exact absurd hkey (hother b (hl b hb))
    · have hmem : r ∈ before ++ a :: later := by
        rcases hl r hr with hr | hr
        · exact List.mem_append_left _ hr
        · exact List.mem_append_right _ (List.mem_cons_of_mem a hr)
      simp [hnone r hmem]
  have hsplit : update key (key a) f (before ++ a :: later) =
      update key (key a) f before ++ f a :: update key (key a) f later := by
    simp [update]
  rw [hsplit, List.filter_append, List.filter_cons_of_pos hp,
    hkeep before (fun r hr => .inl hr), hkeep later (fun r hr => .inr hr), List.nil_append]

theorem update_of_forall_ne (h : ∀ r ∈ rows, key r ≠ k) : update key k f rows = rows := by
  unfold update
  rw [List.map_congr_left (fun r hr => if_neg (h r hr)), List.map_id']

theorem update_eq_self (h : ∀ r ∈ rows, key r = k → f r = r) : update key k f rows = rows := by
  unfold update
  refine (List.map_congr_left (fun r hr => ?_)).trans (List.map_id rows)
  split
  · next hkey => exact h r hr hkey
  · rfl

@[simp] theorem update_append (rest : List ρ) :
    update key k f (rows ++ rest) = update key k f rows ++ update key k f rest :=
  List.map_append

@[simp] theorem update_cons_self (a : ρ) (rest : List ρ) :
    update key (key a) f (a :: rest) = f a :: update key (key a) f rest := by
  simp [update]

/-! ## The latest row -/

variable {ω : Type*} [LinearOrder ω] {order : ρ → ω}

/-- The row that comes last in an order. -/
def latest (order : ρ → ω) (rows : List ρ) : Option ρ :=
  rows.argmax order

theorem latest_eq_none : latest order rows = none ↔ rows = [] :=
  List.argmax_eq_none

theorem latest_mem (h : latest order rows = some a) : a ∈ rows :=
  List.argmax_mem h

theorem le_of_latest {b : ρ} (h : latest order rows = some a) (hb : b ∈ rows) : order b ≤ order a :=
  List.le_of_mem_argmax hb h

@[simp] theorem latest_singleton (order : ρ → ω) (a : ρ) : latest order [a] = some a :=
  List.argmax_singleton

theorem latest_append (h : ∀ b ∈ rows, order b < order a) :
    latest order (rows ++ [a]) = some a := by
  unfold latest
  rw [List.argmax_concat]
  cases hlast : rows.argmax order with
  | none => rfl
  | some b => exact if_pos (h b (List.argmax_mem hlast))

end Table
