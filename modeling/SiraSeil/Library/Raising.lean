-- SUMMARY: Inversion lemmas for computations that may raise: sequencing and traversals of lists in `Except`.
import Mathlib.Control.Monad.Basic
import Mathlib.Data.List.Forall2

/-!
# Computations that may raise

Each lemma turns "the computation returned" into what its parts returned.
-/

namespace Raising

universe u v

variable {ε : Type v} {α β : Type u}

variable {x : Except ε α} {f : α → Except ε β} {b : β} {e : ε} {a : α} {p : α → Bool} {l : List α}
  {r : List β}

theorem bind_eq_ok : (x >>= f) = .ok b ↔ ∃ a, x = .ok a ∧ f a = .ok b := by
  cases x <;> simp [bind, Except.bind]

theorem bind_eq_error : (x >>= f) = .error e ↔ x = .error e ∨ ∃ a, x = .ok a ∧ f a = .error e := by
  cases x <;> simp [bind, Except.bind]

theorem check_bind_eq_ok {ε α : Type} {x : Except ε Unit} {f : Unit → Except ε α} {a : α} :
    (x >>= f) = .ok a ↔ x = .ok () ∧ f () = .ok a := by
  rw [bind_eq_ok]
  exact ⟨fun ⟨_, h⟩ => h, fun h => ⟨(), h⟩⟩

theorem map_eq_ok {f : α → β} : (f <$> x) = .ok b ↔ ∃ a, x = .ok a ∧ f a = b := by
  cases x <;> simp [Functor.map, Except.map]

@[simp] theorem mapError_eq_ok {ε' : Type*} {f : ε → ε'} : x.mapError f = .ok a ↔ x = .ok a := by
  cases x <;> simp [Except.mapError]

@[simp] theorem pure_eq_ok {b : α} : (pure a : Except ε α) = .ok b ↔ a = b := by
  simp [pure, Except.pure]

@[simp] theorem ok_bind (a : α) (f : α → Except ε β) : (Except.ok a >>= f) = f a := rfl

@[simp] theorem error_bind (e : ε) (f : α → Except ε β) : (Except.error e >>= f) = .error e := rfl

@[simp] theorem throw_eq_ok_iff (e : ε) (a : α) : (throw e : Except ε α) = .ok a ↔ False :=
  iff_false_intro nofun

theorem unless_throw_eq_ok {p : Prop} [Decidable p]
    {f : PUnit → Except ε α} : (if p then throw e >>= f else x) = .ok a ↔ ¬ p ∧ x = .ok a := by
  split
  · next hp => exact ⟨nofun, fun h => absurd hp h.1⟩
  · next hp => exact ⟨fun h => ⟨hp, h⟩, fun h => h.2⟩

theorem exists_of_isOk (h : x.isOk = true) : ∃ a, x = .ok a := by
  cases x with
  | ok a => exact ⟨a, rfl⟩
  | error e => cases h

theorem eq_ok_get (h : x.toOption.isSome = true) : x = .ok (x.toOption.get h) := by
  cases x with
  | ok a => rfl
  | error e => cases h

/-- A condition on the result of a computation is decided by running it. -/
instance decidableForallOk (x : Except ε α) (p : α → Prop) [DecidablePred p] :
    Decidable (∀ a, x = .ok a → p a) :=
  match x with
  | .ok a => decidable_of_iff (p a) ⟨fun h _ ha => Except.ok.inj ha ▸ h, fun h => h a rfl⟩
  | .error _ => .isTrue nofun

theorem exists_of_toOption_any (h : x.toOption.any p = true) : ∃ a, x = .ok a ∧ p a = true := by
  cases x with
  | ok a => exact ⟨a, rfl, h⟩
  | error e => cases h

/-- What a computation raises -/
def error? : Except ε α → Option ε
  | .error e => some e
  | .ok _ => none

theorem error?_eq_some : error? x = some e ↔ x = .error e := by
  cases x <;> simp [error?]

theorem forM_eq_ok {f : α → Except ε PUnit} : forM l f = .ok ⟨⟩ ↔ ∀ a ∈ l, f a = .ok ⟨⟩ := by
  induction l with
  | nil => simp
  | cons a l ih =>
    rw [List.forM_cons, bind_eq_ok, List.forall_mem_cons, ih]
    exact ⟨fun ⟨_, h⟩ => h, fun h => ⟨⟨⟩, h⟩⟩

theorem mapM_eq_ok : l.mapM f = .ok r ↔ List.Forall₂ (fun a b => f a = .ok b) l r := by
  induction l generalizing r with
  | nil =>
    simp only [List.mapM_nil, pure_eq_ok, List.forall₂_nil_left_iff]
    exact eq_comm
  | cons a l ih =>
    simp only [List.mapM_cons, bind_eq_ok, pure_eq_ok, ih]
    constructor
    · rintro ⟨b, hb, bs, hbs, rfl⟩
      exact List.Forall₂.cons hb hbs
    · rintro (_ | ⟨hb, hbs⟩)
      exact ⟨_, hb, _, hbs, rfl⟩

theorem length_of_mapM_eq_ok (h : l.mapM f = .ok r) : r.length = l.length := by
  rw [mapM_eq_ok] at h
  exact h.length_eq.symm

theorem mem_of_mapM_eq_ok (h : l.mapM f = .ok r) : b ∈ r ↔ ∃ a ∈ l, f a = .ok b := by
  rw [mapM_eq_ok] at h
  induction h with
  | nil => simp
  | cons hab _ ih => simp [ih, hab, eq_comm]

theorem exists_of_mapM_eq_ok (h : l.mapM f = .ok r) (ha : a ∈ l) : ∃ b ∈ r, f a = .ok b := by
  rw [mapM_eq_ok] at h
  induction h with
  | nil => simp at ha
  | cons hab _ ih =>
    rcases List.mem_cons.mp ha with rfl | hmem
    · exact ⟨_, List.mem_cons_self, hab⟩
    · obtain ⟨b, hb, hfb⟩ := ih hmem
      exact ⟨b, List.mem_cons_of_mem _ hb, hfb⟩

theorem exists_mapM_eq_ok (h : ∀ a ∈ l, ∃ b, f a = .ok b) : ∃ r, l.mapM f = .ok r := by
  induction l with
  | nil => exact ⟨[], rfl⟩
  | cons a l ih =>
    obtain ⟨b, hb⟩ := h a List.mem_cons_self
    obtain ⟨r, hr⟩ := ih (fun x hx => h x (List.mem_cons_of_mem a hx))
    refine ⟨b :: r, ?_⟩
    rw [mapM_eq_ok] at hr ⊢
    exact List.Forall₂.cons hb hr

theorem nodup_iff_of_mapM_eq_ok (h : l.mapM f = .ok r)
    (hinj : ∀ a ∈ l, ∀ b ∈ l, ∀ x, f a = .ok x → f b = .ok x → a = b) : r.Nodup ↔ l.Nodup := by
  rw [mapM_eq_ok] at h
  induction h with
  | nil => simp
  | @cons a x l r hax hlr ih =>
    have htail : r.Nodup ↔ l.Nodup := ih (fun b hb c hc =>
      hinj b (List.mem_cons_of_mem a hb) c (List.mem_cons_of_mem a hc))
    have hmem : x ∈ r ↔ a ∈ l := by
      have hrest : l.mapM f = .ok r := by
        rw [mapM_eq_ok]
        exact hlr
      rw [mem_of_mapM_eq_ok hrest]
      constructor
      · rintro ⟨b, hb, hbx⟩
        have hab := hinj a List.mem_cons_self b (List.mem_cons_of_mem a hb) x hax hbx
        exact hab ▸ hb
      · intro ha
        exact ⟨a, ha, hax⟩
    rw [List.nodup_cons, List.nodup_cons, htail, hmem]

theorem map_eq_of_mapM_eq_ok {γ : Type*} (h : l.mapM f = .ok r) {view : β → γ} {own : α → γ}
    (hview : ∀ a ∈ l, ∀ b, f a = .ok b → view b = own a) : r.map view = l.map own := by
  rw [mapM_eq_ok] at h
  induction h with
  | nil => rfl
  | @cons a b l r hab _ ih =>
    rw [List.map_cons, List.map_cons, hview a List.mem_cons_self b hab,
      ih (fun c hc => hview c (List.mem_cons_of_mem a hc))]

theorem exists_mapM_forall₂ {β' : Type u} {g : α → Except ε β'} {R : β → β' → Prop}
    (h : l.mapM f = .ok r) (hrelated : ∀ a ∈ l, ∀ b, f a = .ok b → ∃ b', g a = .ok b' ∧ R b b') :
    ∃ r', l.mapM g = .ok r' ∧ List.Forall₂ R r r' := by
  rw [mapM_eq_ok] at h
  induction h with
  | nil => exact ⟨[], rfl, .nil⟩
  | @cons a b l r hab _ ih =>
    obtain ⟨b', hb', hR⟩ := hrelated a List.mem_cons_self b hab
    obtain ⟨r', hr', hrs⟩ := ih (fun c hc => hrelated c (List.mem_cons_of_mem a hc))
    refine ⟨b' :: r', ?_, .cons hR hrs⟩
    rw [mapM_eq_ok] at hr' ⊢
    exact .cons hb' hr'

/-- Where the results of a traversal carry their element as a key, the part with a key
    is what the element of that key gave. -/
theorem filter_flatMap_of_mapM_eq_ok {γ : Type*} [DecidableEq α] (h : l.mapM f = .ok r)
    (hl : l.Nodup) (view : β → List γ) (key : γ → α)
    (hkey : ∀ a ∈ l, ∀ b, f a = .ok b → ∀ c ∈ view b, key c = a) (ha : a ∈ l)
    (hab : f a = .ok b) : (r.flatMap view).filter (fun c => key c = a) = view b := by
  rw [mapM_eq_ok] at h
  -- Nothing of the other elements has the key `a`.
  have hothers : ∀ {l : List α} {r : List β}, List.Forall₂ (fun a b => f a = .ok b) l r → a ∉ l →
      (∀ a ∈ l, ∀ b, f a = .ok b → ∀ c ∈ view b, key c = a) →
      (r.flatMap view).filter (fun c => key c = a) = [] := by
    intro l r hall hnot hkey
    rw [List.filter_eq_nil_iff]
    intro c hc hca
    obtain ⟨b, hb, hcb⟩ := List.mem_flatMap.mp hc
    have hresults : l.mapM f = .ok r := by
      rw [mapM_eq_ok]
      exact hall
    obtain ⟨a', ha', hab'⟩ := (mem_of_mapM_eq_ok hresults).mp hb
    rw [hkey a' ha' b hab' c hcb, decide_eq_true_eq] at hca
    exact hnot (hca ▸ ha')
  induction h with
  | nil => cases ha
  | @cons a' b' l r hab' hlr ih =>
    obtain ⟨hnot, hnodup⟩ := List.nodup_cons.mp hl
    have hrest := fun c hc => hkey c (List.mem_cons_of_mem a' hc)
    rw [List.flatMap_cons, List.filter_append]
    rcases List.mem_cons.mp ha with rfl | ha
    · obtain rfl : b' = b := Except.ok.inj (hab'.symm.trans hab)
      have hown : (view b').filter (fun c => key c = a) = view b' :=
        List.filter_eq_self.mpr (fun c hc => by simp [hkey a List.mem_cons_self b' hab' c hc])
      rw [hown, hothers hlr hnot hrest, List.append_nil]
    · have hforeign : (view b').filter (fun c => key c = a) = [] := by
        rw [List.filter_eq_nil_iff]
        intro c hc hca
        rw [hkey a' List.mem_cons_self b' hab' c hc, decide_eq_true_eq] at hca
        exact hnot (hca ▸ ha)
      rw [hforeign, ih hnodup hrest ha, List.nil_append]

/-- Two traversals of one list whose results agree in a view agree in it element by
    element. -/
theorem exists_of_mapM_map_eq {γ : Type*} {g : α → Except ε β} {view : β → γ} {r' : List β}
    (hf : l.mapM f = .ok r) (hg : l.mapM g = .ok r') (h : r.map view = r'.map view) (ha : a ∈ l) :
    ∃ b b', f a = .ok b ∧ g a = .ok b' ∧ view b = view b' := by
  induction l generalizing r r' with
  | nil => cases ha
  | cons c l ih =>
    rw [mapM_eq_ok] at hf hg
    cases hf with
    | @cons _ b _ bs hb hbs =>
      cases hg with
      | @cons _ b' _ bs' hb' hbs' =>
        simp only [List.map_cons, List.cons.injEq] at h
        rcases List.mem_cons.mp ha with rfl | ha
        · exact ⟨b, b', hb, hb', h.1⟩
        · rw [← mapM_eq_ok] at hbs hbs'
          exact ih hbs hbs' h.2 ha

/-- What every round of a loop relates, the loop relates, if the relation is a preorder. -/
theorem foldlM_related {f : β → α → Except ε β} {R : β → β → Prop} (hrefl : ∀ b, R b b)
    (htrans : ∀ b c d, R b c → R c d → R b d) (hround : ∀ b, ∀ a ∈ l, ∀ c, f b a = .ok c → R b c)
    {c : β} (h : l.foldlM f b = .ok c) : R b c := by
  induction l generalizing b with
  | nil =>
    obtain rfl := pure_eq_ok.mp h
    exact hrefl _
  | cons a l ih =>
    rw [List.foldlM_cons, bind_eq_ok] at h
    obtain ⟨d, hround', hrest⟩ := h
    exact htrans _ _ _ (hround b a List.mem_cons_self d hround')
      (ih (fun b a ha => hround b a (List.mem_cons_of_mem _ ha)) hrest)

theorem mapM_congr {g : α → Except ε β} (h : ∀ a ∈ l, f a = g a) : l.mapM f = l.mapM g := by
  induction l with
  | nil => rfl
  | cons a l ih =>
    have htail : l.mapM f = l.mapM g := ih (fun b hb => h b (List.mem_cons_of_mem a hb))
    simp only [List.mapM_cons, h a List.mem_cons_self, htail]

theorem mapM_flatten_filter {f : α → Except ε (List β)} (h : ∀ a ∈ l, p a = false → f a = .ok []) :
    List.flatten <$> l.mapM f = List.flatten <$> (l.filter p).mapM f := by
  induction l with
  | nil => rfl
  | cons a l ih =>
    have htail := ih (fun b hb => h b (List.mem_cons_of_mem a hb))
    cases hp : p a with
    | false =>
      rw [List.filter_cons_of_neg (by simp [hp]), ← htail, List.mapM_cons,
        h a List.mem_cons_self hp, ok_bind]
      cases l.mapM f with
      | error e => rfl
      | ok r => rfl
    | true =>
      rw [List.filter_cons_of_pos hp, List.mapM_cons, List.mapM_cons]
      cases f a with
      | error e => rfl
      | ok b =>
        simp only [ok_bind]
        cases hl : l.mapM f with
        | error e =>
          cases hf : (l.filter p).mapM f with
          | error e' =>
            rw [hl, hf] at htail
            exact htail
          | ok r =>
            rw [hl, hf] at htail
            cases htail
        | ok r =>
          cases hf : (l.filter p).mapM f with
          | error e =>
            rw [hl, hf] at htail
            cases htail
          | ok r' =>
            rw [hl, hf] at htail
            have hflat : r.flatten = r'.flatten := Except.ok.inj htail
            exact congrArg (fun xs => Except.ok (b ++ xs)) hflat

/-- A traversal of the selected elements returns the selected results, provided that
    the other elements do not raise. -/
theorem mapM_filter {q : β → Bool} (hok : ∀ a ∈ l, p a = false → ∃ b, f a = .ok b)
    (hsame : ∀ a ∈ l, ∀ b, f a = .ok b → q b = p a) :
    (l.filter p).mapM f = List.filter q <$> l.mapM f := by
  induction l with
  | nil => rfl
  | cons a l ih =>
    have htail := ih (fun b hb => hok b (List.mem_cons_of_mem a hb))
      (fun b hb => hsame b (List.mem_cons_of_mem a hb))
    cases hp : p a with
    | false =>
      obtain ⟨b, hb⟩ := hok a List.mem_cons_self hp
      have hq : q b = false := (hsame a List.mem_cons_self b hb).trans hp
      rw [List.filter_cons_of_neg (by simp [hp]), htail, List.mapM_cons, hb, ok_bind]
      cases l.mapM f with
      | error e => rfl
      | ok r =>
        show Except.ok (r.filter q) = Except.ok ((b :: r).filter q)
        rw [List.filter_cons_of_neg (by simp [hq])]
    | true =>
      rw [List.filter_cons_of_pos hp, List.mapM_cons, List.mapM_cons, htail]
      cases hb : f a with
      | error e => rfl
      | ok b =>
        have hq : q b = true := (hsame a List.mem_cons_self b hb).trans hp
        cases l.mapM f with
        | error e => rfl
        | ok r =>
          show Except.ok (b :: r.filter q) = Except.ok ((b :: r).filter q)
          rw [List.filter_cons_of_pos hq]

theorem mapM_eq_error :
    l.mapM f = .error e ↔ ∃ before a after, l = before ++ a :: after ∧
      (∀ b ∈ before, ∃ c, f b = .ok c) ∧ f a = .error e := by
  induction l with
  | nil => simp [pure, Except.pure]
  | cons a l ih =>
    rw [List.mapM_cons]
    cases ha : f a with
    | error raised =>
      constructor
      · intro h
        cases h
        exact ⟨[], a, l, rfl, by simp, ha⟩
      · rintro ⟨before, other, after, hsplit, hbefore, hraised⟩
        cases before with
        | nil =>
          cases hsplit
          rw [hraised] at ha
          cases ha
          rfl
        | cons first before =>
          cases hsplit
          obtain ⟨c, hc⟩ := hbefore a List.mem_cons_self
          rw [ha] at hc
          cases hc
    | ok c =>
      have hrest : (do
          let r ← l.mapM f
          pure (c :: r)) = Except.error e ↔ l.mapM f = .error e := by
        cases l.mapM f <;> simp [pure, Except.pure, bind, Except.bind]
      refine hrest.trans (ih.trans ?_)
      constructor
      · rintro ⟨before, other, after, hsplit, hbefore, hraised⟩
        refine ⟨a :: before, other, after, by rw [hsplit]; rfl, ?_, hraised⟩
        exact List.forall_mem_cons.mpr ⟨⟨c, ha⟩, hbefore⟩
      · rintro ⟨before, other, after, hsplit, hbefore, hraised⟩
        cases before with
        | nil =>
          cases hsplit
          rw [ha] at hraised
          cases hraised
        | cons first before =>
          cases hsplit
          exact ⟨before, other, after, rfl, fun b hb => hbefore b (List.mem_cons_of_mem _ hb), hraised⟩

theorem filterM_eq_ok {α ε : Type} {f : α → Except ε Bool} {p : α → Bool} {l : List α}
    (h : ∀ a ∈ l, f a = .ok (p a)) : l.filterM f = .ok (l.filter p) := by
  have hfilter : ∀ kept, l.filterAuxM f kept = .ok ((l.filter p).reverse ++ kept) := by
    induction l with
    | nil => exact fun _ => rfl
    | cons a l ih =>
      obtain ⟨ha, hl⟩ := List.forall_mem_cons.mp h
      intro kept
      rw [List.filterAuxM, ha, ok_bind, ih hl, List.filter_cons]
      cases p a with
      | false => rfl
      | true => simp
  rw [List.filterM, hfilter [], ok_bind, List.append_nil, List.reverse_reverse]
  rfl

theorem mapM_eq_none_iff {f : α → Option β} : l.mapM f = none ↔ ∃ a ∈ l, f a = none := by
  induction l with
  | nil => simp
  | cons a l ih =>
    cases ha : f a with
    | none => simp [ha]
    | some b =>
      have htail : (a :: l).mapM f = none ↔ l.mapM f = none := by
        rw [List.mapM_cons, ha]
        cases l.mapM f <;> simp
      rw [htail, ih]
      simp [ha]

end Raising
