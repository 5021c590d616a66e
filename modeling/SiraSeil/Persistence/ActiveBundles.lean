-- SUMMARY: The catalog of product bundles with their active pointers, the changes that publishing makes to it, and what they preserve.
import SiraSeil.Persistence.QualificationOperations

/-!
# Active bundles

Which bundle of a product is active is written three times: in the pointer of the product,
in the states of its bundles, and in the digest, which is that of the members. Publishing
changes them together, and nothing else changes them.
-/

namespace Persistence

open Domain Raising

structure Catalog where
  bundles : List ProductBundle
  members : List ProductBundleMember
  pointers : List ActiveProductBundle

def QualificationDb.catalog (db : QualificationDb) : Catalog :=
  ⟨db.bundles, db.members, db.activeBundles⟩

/-- The bundle that a pointer has. -/
def ActiveProductBundle.Targets (p : ActiveProductBundle) (b : ProductBundle) : Prop :=
  b.id = p.bundleId ∧ b.organizationId = p.organizationId ∧ b.productId = p.productId ∧
    b.digest = p.bundleDigest

namespace Catalog

/-- The members of a bundle in the order of their ordinals. -/
def membersOf (c : Catalog) (b : ProductBundle) : List ProductBundleMember :=
  Sorting.sortedBy (·.ordinal) (c.members.filter (fun m =>
    m.organizationId = b.organizationId ∧ m.bundleId = b.id))

/-- The three accounts of what is active agree. -/
structure Sound (rt : Runtime) (c : Catalog) : Prop where
  bundles : Table.Keyed (·.id) c.bundles
  pointers : Table.Keyed (·.productId) c.pointers
  /-- A pointer has an active bundle. -/
  target : ∀ p ∈ c.pointers, ∃ b ∈ c.bundles, p.Targets b ∧ b.state = .active
  /-- An active bundle has a pointer. -/
  pointed : ∀ b ∈ c.bundles, b.state = .active → ∃ p ∈ c.pointers, p.Targets b
  members : ∀ m ∈ c.members, ∃ b ∈ c.bundles, m.bundleId = b.id
  digests : ∀ b ∈ c.bundles, b.state = .active → membershipDigest rt (c.membersOf b) = .ok b.digest

/-- A pointer moves to another bundle only in a new generation, and what is superseded stays
    superseded. -/
structure Advances (c c' : Catalog) : Prop where
  pointers : ∀ p ∈ c.pointers, ∃ p' ∈ c'.pointers, p'.productId = p.productId ∧
    p'.organizationId = p.organizationId ∧ p.generation ≤ p'.generation ∧
    (p'.bundleId ≠ p.bundleId → p.generation < p'.generation)
  superseded : ∀ b ∈ c.bundles, b.state = .superseded → b ∈ c'.bundles

theorem Advances.refl (c : Catalog) : Advances c c where
  pointers := fun p hp => ⟨p, hp, rfl, rfl, le_rfl, fun hne => absurd rfl hne⟩
  superseded := fun _ hb _ => hb

theorem Advances.trans {c c' c'' : Catalog} (h : Advances c c') (h' : Advances c' c'') :
    Advances c c'' where
  pointers := by
    intro p hp
    obtain ⟨q, hq, hproduct, horg, hle, hmoved⟩ := h.pointers p hp
    obtain ⟨r, hr, hproduct', horg', hle', hmoved'⟩ := h'.pointers q hq
    refine ⟨r, hr, hproduct'.trans hproduct, horg'.trans horg, hle.trans hle', fun hne => ?_⟩
    by_cases hsame : q.bundleId = p.bundleId
    · have hlt := hmoved' (fun heq => hne (heq.trans hsame))
      omega
    · have hlt := hmoved hsame
      omega
  superseded := fun b hb hstate => h'.superseded b (h.superseded b hb hstate) hstate

theorem sound_empty {rt : Runtime} : Sound rt (QualificationDb.catalog {}) where
  bundles := Table.keyed_nil
  pointers := Table.keyed_nil
  target := fun _ h => nomatch h
  pointed := fun _ h => nomatch h
  members := fun _ h => nomatch h
  digests := fun _ h => nomatch h

section Changes

variable {rt : Runtime} {c c' : Catalog} {b : ProductBundle} {p : ActiveProductBundle}

theorem Sound.eq_of_targets (h : c.Sound rt) {b' : ProductBundle} (hb : b ∈ c.bundles)
    (hb' : b' ∈ c.bundles) (htarget : p.Targets b) (htarget' : p.Targets b') : b = b' :=
  h.bundles.eq hb hb' (htarget.1.trans htarget'.1.symm)

/-! ## Storing -/

theorem Sound.stores {ms : List ProductBundleMember} (h : c.Sound rt)
    (hid : ∀ x ∈ c.bundles, x.id ≠ b.id) (hstate : b.state ≠ .active)
    (hmembers : ∀ m ∈ ms, m.bundleId = b.id) :
    Sound rt ⟨c.bundles ++ [b], c.members ++ ms, c.pointers⟩ := by
  have hkeep : ∀ x ∈ c.bundles,
      membersOf ⟨c.bundles ++ [b], c.members ++ ms, c.pointers⟩ x = c.membersOf x := by
    intro x hx
    have hnone : ms.filter (fun m => m.organizationId = x.organizationId ∧ m.bundleId = x.id) =
        [] := by
      refine List.filter_eq_nil_iff.mpr (fun m hm hof => ?_)
      simp only [decide_eq_true_eq] at hof
      exact hid x hx (hof.2.symm.trans (hmembers m hm))
    unfold membersOf
    rw [List.filter_append, hnone, List.append_nil]
  have hold : ∀ x ∈ c.bundles ++ [b], x.state = .active → x ∈ c.bundles := by
    intro x hx hactive
    rcases List.mem_append.mp hx with hx | hx
    · exact hx
    · rw [List.mem_singleton.mp hx] at hactive
      exact absurd hactive hstate
  constructor
  · exact h.bundles.append hid
  · exact h.pointers
  · intro q hq
    obtain ⟨x, hx, htarget⟩ := h.target q hq
    exact ⟨x, List.mem_append_left _ hx, htarget⟩
  · exact fun x hx hactive => h.pointed x (hold x hx hactive) hactive
  · intro m hm
    rcases List.mem_append.mp hm with hm | hm
    · obtain ⟨x, hx, hof⟩ := h.members m hm
      exact ⟨x, List.mem_append_left _ hx, hof⟩
    · exact ⟨b, List.mem_append_right _ (List.mem_singleton_self b), hmembers m hm⟩
  · intro x hx hactive
    have hx := hold x hx hactive
    rw [hkeep x hx]
    exact h.digests x hx hactive

/-! ## Activating -/

/-- The bundle is active. -/
def activated (b : ProductBundle) : ProductBundle :=
  { b with state := .active }

/-- The bundles after an activation. -/
def activate (b : ProductBundle) (bundles : List ProductBundle) : List ProductBundle :=
  Table.update (·.id) b.id activated bundles

/-- An active bundle is superseded. -/
def superseded (b : ProductBundle) : ProductBundle :=
  if b.state = .active then { b with state := .superseded } else b

/-- The pointer of a product that had none. -/
def firstPointer (b : ProductBundle) : ActiveProductBundle :=
  ⟨b.productId, b.id, b.digest, 1, b.organizationId⟩

/-- The pointer moves to the bundle in its next generation. -/
def movedTo (b : ProductBundle) (p : ActiveProductBundle) : ActiveProductBundle :=
  { p with
    bundleId := b.id
    bundleDigest := b.digest
    generation := p.generation + 1 }

theorem mem_activate {bundles : List ProductBundle} {x : ProductBundle}
    (hkeyed : Table.Keyed (·.id) bundles) (hb : b ∈ bundles) :
    x ∈ activate b bundles ↔ x = activated b ∨ (x ∈ bundles ∧ x.id ≠ b.id) := by
  unfold activate
  rw [Table.mem_update]
  constructor
  · rintro (⟨y, hy, hid, rfl⟩ | hx)
    · rw [hkeyed.eq hy hb hid]
      exact .inl rfl
    · exact .inr hx
  · rintro (rfl | hx)
    · exact .inl ⟨b, hb, rfl, rfl⟩
    · exact .inr hx

theorem activate_of_active {bundles : List ProductBundle} (hkeyed : Table.Keyed (·.id) bundles)
    (hb : b ∈ bundles) (hactive : b.state = .active) : activate b bundles = bundles := by
  unfold activate Table.update
  have hsame : ∀ x ∈ bundles, (if x.id = b.id then activated x else x) = x := by
    intro x hx
    split
    · next hid =>
      rw [hkeyed.eq hx hb hid]
      unfold activated
      rw [← hactive]
    · rfl
  exact (List.map_congr_left hsame).trans (List.map_id' bundles)

/-- An activation turns the bundles of a sound catalog, of which none of the same product is
    active any more, into those of a sound one, if the pointers follow. -/
theorem Sound.activates {bundles : List ProductBundle} {pointers : List ActiveProductBundle}
    (hbundles : Table.Keyed (·.id) bundles) (hpointers : Table.Keyed (·.productId) pointers)
    (hb : b ∈ bundles) (hp : p ∈ pointers) (htarget : p.Targets b)
    (hothers : ∀ q ∈ pointers, q.productId ≠ b.productId →
      ∃ x ∈ bundles, q.Targets x ∧ x.state = .active)
    (hactives : ∀ x ∈ bundles, x.state = .active → x.id ≠ b.id → ∃ q ∈ pointers, q.Targets x)
    (hmembers : ∀ m ∈ c.members, ∃ x ∈ bundles, m.bundleId = x.id)
    (hdigests : ∀ x ∈ bundles, x.state = .active → membershipDigest rt (c.membersOf x) =
      .ok x.digest)
    (hdigest : membershipDigest rt (c.membersOf b) = .ok b.digest) :
    Sound rt ⟨activate b bundles, c.members, pointers⟩ := by
  have hmem : ∀ x, x ∈ activate b bundles ↔ x = activated b ∨ (x ∈ bundles ∧ x.id ≠ b.id) :=
    fun x => mem_activate hbundles hb
  have hself : activated b ∈ activate b bundles := (hmem _).mpr (.inl rfl)
  constructor
  · exact hbundles.update (fun _ => rfl)
  · exact hpointers
  · intro q hq
    by_cases hproduct : q.productId = b.productId
    · obtain rfl := hpointers.eq hq hp (hproduct.trans htarget.2.2.1)
      exact ⟨activated b, hself, htarget, rfl⟩
    · obtain ⟨x, hx, hxtarget, hactive⟩ := hothers q hq hproduct
      refine ⟨x, (hmem x).mpr (.inr ⟨hx, fun hid => hproduct ?_⟩), hxtarget, hactive⟩
      rw [← hxtarget.2.2.1, hbundles.eq hx hb hid]
  · intro x hx hactive
    rcases (hmem x).mp hx with rfl | ⟨hx, hid⟩
    · exact ⟨p, hp, htarget⟩
    · exact hactives x hx hactive hid
  · intro m hm
    obtain ⟨x, hx, hof⟩ := hmembers m hm
    by_cases hid : x.id = b.id
    · exact ⟨activated b, hself, hof.trans hid⟩
    · exact ⟨x, (hmem x).mpr (.inr ⟨hx, hid⟩), hof⟩
  · intro x hx hactive
    rcases (hmem x).mp hx with rfl | ⟨hx, -⟩
    · exact hdigest
    · exact hdigests x hx hactive

theorem Sound.activatesFirst (h : c.Sound rt) (hb : b ∈ c.bundles)
    (hnone : ∀ q ∈ c.pointers, q.productId ≠ b.productId)
    (hdigest : membershipDigest rt (c.membersOf b) = .ok b.digest) :
    Sound rt ⟨activate b c.bundles, c.members, c.pointers ++ [firstPointer b]⟩ := by
  have hself : firstPointer b ∈ c.pointers ++ [firstPointer b] :=
    List.mem_append_right _ (List.mem_singleton_self _)
  apply Sound.activates (p := firstPointer b) h.bundles (h.pointers.append hnone) hb hself
    ⟨rfl, rfl, rfl, rfl⟩
  · intro q hq hproduct
    rcases List.mem_append.mp hq with hq | hq
    · exact h.target q hq
    · rw [List.mem_singleton.mp hq] at hproduct
      exact absurd rfl hproduct
  · intro x hx hactive _
    obtain ⟨q, hq, htarget⟩ := h.pointed x hx hactive
    exact ⟨q, List.mem_append_left _ hq, htarget⟩
  · exact h.members
  · exact h.digests
  · exact hdigest

theorem Sound.moves (h : c.Sound rt) (hb : b ∈ c.bundles) (hp : p ∈ c.pointers)
    (hproduct : p.productId = b.productId) (horg : p.organizationId = b.organizationId)
    (hother : p.bundleId ≠ b.id)
    (hdigest : membershipDigest rt (c.membersOf b) = .ok b.digest) :
    Sound rt ⟨activate b (Table.update (·.id) p.bundleId superseded c.bundles), c.members,
      Table.update (·.productId) p.productId (movedTo b) c.pointers⟩ := by
  have hsame : ∀ x : ProductBundle, (superseded x).id = x.id ∧ (superseded x).state ≠ .active ∧
      (superseded x).digest = x.digest := by
    intro x
    unfold superseded
    split
    · exact ⟨rfl, nofun, rfl⟩
    · next hstate => exact ⟨rfl, hstate, rfl⟩
  -- Only the pointer that moves had the bundle that is superseded.
  have hkept : ∀ q ∈ c.pointers, q.productId ≠ p.productId →
      q ∈ Table.update (·.productId) p.productId (movedTo b) c.pointers :=
    fun q hq hne => Table.mem_update.mpr (.inr ⟨hq, hne⟩)
  have hlive : ∀ x ∈ c.bundles, x.id ≠ p.bundleId →
      x ∈ Table.update (·.id) p.bundleId superseded c.bundles :=
    fun x hx hne => Table.mem_update.mpr (.inr ⟨hx, hne⟩)
  obtain ⟨old, hold, htarget, -⟩ := h.target p hp
  apply Sound.activates (p := movedTo b p)
  · exact h.bundles.update (fun x => (hsame x).1)
  · exact h.pointers.update (fun _ => rfl)
  · exact hlive b hb (Ne.symm hother)
  · exact Table.mem_update.mpr (.inl ⟨p, hp, rfl, rfl⟩)
  · exact ⟨rfl, horg.symm, hproduct.symm, rfl⟩
  · intro q hq hne
    rcases Table.mem_update.mp hq with ⟨r, -, hr, rfl⟩ | ⟨hq, -⟩
    · exact absurd (hr.trans hproduct) hne
    · obtain ⟨x, hx, hxtarget, hactive⟩ := h.target q hq
      refine ⟨x, hlive x hx (fun hid => hne ?_), hxtarget, hactive⟩
      rw [← hxtarget.2.2.1, h.bundles.eq hx hold (hid.trans htarget.1.symm), htarget.2.2.1,
        hproduct]
  · intro x hx hactive hne
    rcases Table.mem_update.mp hx with ⟨y, -, -, rfl⟩ | ⟨hx, hid⟩
    · exact absurd hactive (hsame y).2.1
    · obtain ⟨q, hq, hqtarget⟩ := h.pointed x hx hactive
      refine ⟨q, hkept q hq (fun heq => hid ?_), hqtarget⟩
      rw [hqtarget.1, h.pointers.eq hq hp heq]
  · intro m hm
    obtain ⟨x, hx, hof⟩ := h.members m hm
    by_cases hid : x.id = p.bundleId
    · exact ⟨superseded x, Table.mem_update.mpr (.inl ⟨x, hx, hid, rfl⟩),
        hof.trans (hsame x).1.symm⟩
    · exact ⟨x, hlive x hx hid, hof⟩
  · intro x hx hactive
    rcases Table.mem_update.mp hx with ⟨y, -, -, rfl⟩ | ⟨hx, -⟩
    · exact absurd hactive (hsame y).2.1
    · exact h.digests x hx hactive
  · exact hdigest

/-! ## Changes -/

/-- What one transaction does to the catalog. -/
inductive Change (rt : Runtime) (c : Catalog) : Catalog → Prop
  | stays : Change rt c c
  | stores {b : ProductBundle} {ms : List ProductBundleMember} (hid : ∀ x ∈ c.bundles, x.id ≠ b.id)
      (hstate : b.state ≠ .active) (hmembers : ∀ m ∈ ms, m.bundleId = b.id) :
      Change rt c ⟨c.bundles ++ [b], c.members ++ ms, c.pointers⟩
  | first {b : ProductBundle} (hb : b ∈ c.bundles) (hstate : b.state ≠ .superseded)
      (hnone : ∀ q ∈ c.pointers, q.productId ≠ b.productId)
      (hdigest : membershipDigest rt (c.membersOf b) = .ok b.digest) :
      Change rt c ⟨activate b c.bundles, c.members, c.pointers ++ [firstPointer b]⟩
  | moves {b : ProductBundle} {p : ActiveProductBundle} (hb : b ∈ c.bundles)
      (hstate : b.state ≠ .superseded) (hp : p ∈ c.pointers) (hproduct : p.productId = b.productId)
      (horg : p.organizationId = b.organizationId) (hother : p.bundleId ≠ b.id)
      (hdigest : membershipDigest rt (c.membersOf b) = .ok b.digest) :
      Change rt c ⟨activate b (Table.update (·.id) p.bundleId superseded c.bundles), c.members,
        Table.update (·.productId) p.productId (movedTo b) c.pointers⟩

theorem Sound.change (h : c.Sound rt) (hchange : Change rt c c') : c'.Sound rt := by
  cases hchange with
  | stays => exact h
  | stores hid hstate hmembers => exact h.stores hid hstate hmembers
  | first hb hstate hnone hdigest => exact h.activatesFirst hb hnone hdigest
  | moves hb hstate hp hproduct horg hother hdigest =>
    exact h.moves hb hp hproduct horg hother hdigest

theorem Sound.advances (h : c.Sound rt) (hchange : Change rt c c') : Advances c c' := by
  cases hchange with
  | stays => exact Advances.refl c
  | stores =>
    exact ⟨fun q hq => ⟨q, hq, rfl, rfl, le_rfl, fun hne => absurd rfl hne⟩,
      fun x hx _ => List.mem_append_left _ hx⟩
  | first hb hstate =>
    refine ⟨fun q hq => ⟨q, List.mem_append_left _ hq, rfl, rfl, le_rfl,
      fun hne => absurd rfl hne⟩, fun x hx hsuperseded => ?_⟩
    refine (mem_activate h.bundles hb).mpr (.inr ⟨hx, fun hid => hstate ?_⟩)
    rw [← h.bundles.eq hx hb hid, hsuperseded]
  | @moves b p hb hstate hp =>
    constructor
    · intro q hq
      by_cases hproduct : q.productId = p.productId
      · obtain rfl := h.pointers.eq hq hp hproduct
        refine ⟨movedTo b q, Table.mem_update.mpr (.inl ⟨q, hq, rfl, rfl⟩), rfl, rfl, ?_, fun _ => ?_⟩
        · exact Nat.le_succ q.generation
        · exact Nat.lt_succ_self q.generation
      · exact ⟨q, Table.mem_update.mpr (.inr ⟨hq, hproduct⟩), rfl, rfl, le_rfl,
          fun hne => absurd rfl hne⟩
    · intro x hx hsuperseded
      have hkept : superseded x = x := by
        unfold superseded
        rw [if_neg (by simp [hsuperseded])]
      have hne : x.id ≠ b.id := by
        intro hid
        rw [← h.bundles.eq hx hb hid] at hstate
        exact hstate hsuperseded
      refine Table.mem_update.mpr (.inr ⟨?_, hne⟩)
      by_cases hid : x.id = p.bundleId
      · exact Table.mem_update.mpr (.inl ⟨x, hx, hid, hkept⟩)
      · exact Table.mem_update.mpr (.inr ⟨hx, hid⟩)

end Changes

end Catalog

/-! ## Activations as changes -/

section Activation

variable {rt : Runtime} {organizationId : String} {db db' : QualificationDb}

/-- A product gets its first pointer, or its pointer moves, or the bundle has it already. -/
theorem pointTo_eq_ok {bundle : ProductBundle} (horg : bundle.organizationId = organizationId)
    (h : pointTo organizationId bundle db = .ok db') :
    ((∀ q ∈ db.activeBundles, q.productId ≠ bundle.productId) ∧
        db' = { db with activeBundles := db.activeBundles ++ [Catalog.firstPointer bundle] }) ∨
      ∃ p ∈ db.activeBundles, p.productId = bundle.productId ∧
        p.organizationId = bundle.organizationId ∧
        ((p.bundleId ≠ bundle.id ∧ db' = { db with
            bundles := Table.update (·.id) p.bundleId Catalog.superseded db.bundles
            activeBundles := Table.update (·.productId) p.productId (Catalog.movedTo bundle)
              db.activeBundles }) ∨
          (p.bundleId = bundle.id ∧ db' = db)) := by
  subst horg
  unfold pointTo at h
  split at h
  · obtain ⟨_, hfree, h⟩ := bind_eq_ok.mp h
    cases h
    rw [constrain_eq_ok, List.any_eq_false] at hfree
    simp only [decide_eq_true_eq] at hfree
    exact .inl ⟨hfree, rfl⟩
  · next p hfind =>
    have hkeys := List.find?_some hfind
    simp only [decide_eq_true_eq] at hkeys
    refine .inr ⟨p, List.mem_of_find?_eq_some hfind, hkeys.2, hkeys.1, ?_⟩
    split at h
    · next hother =>
      cases h
      exact .inl ⟨hother, rfl⟩
    · next hsame =>
      cases h
      exact .inr ⟨not_not.mp hsame, rfl⟩

theorem change_of_activateBundle {bundleId actorId expectedDigest : String} {b : ProductBundle}
    (hsound : db.catalog.Sound rt)
    (h : activateBundle rt organizationId bundleId actorId expectedDigest db = .ok (b, db')) :
    Catalog.Change rt db.catalog db'.catalog := by
  unfold activateBundle at h
  split at h
  · cases h
  next bundle hfind =>
  have hkeys := List.find?_some hfind
  simp only [decide_eq_true_eq] at hkeys
  have hmem : bundle ∈ db.catalog.bundles := List.mem_of_find?_eq_some hfind
  obtain ⟨-, h⟩ := unless_throw_eq_ok.mp h
  obtain ⟨hstate, h⟩ := unless_throw_eq_ok.mp h
  obtain ⟨computedDigest, hcomputed, h⟩ := bind_eq_ok.mp h
  obtain ⟨hdigest, h⟩ := unless_throw_eq_ok.mp h
  obtain ⟨pointed, hpoint, h⟩ := bind_eq_ok.mp h
  obtain ⟨added, hadd, h⟩ := bind_eq_ok.mp h
  obtain ⟨-, rfl⟩ := addOutbox_eq_ok.mp hadd
  cases h
  obtain ⟨horg, -⟩ := hkeys
  have hnew : bundle.state ≠ .superseded := by
    intro hsuperseded
    simp [hsuperseded] at hstate
  have hmembers : membershipDigest rt (db.catalog.membersOf bundle) = .ok bundle.digest := by
    rw [not_or, not_not] at hdigest
    rw [← horg, hdigest.2] at hcomputed
    exact hcomputed
  rcases pointTo_eq_ok horg hpoint with ⟨hnone, rfl⟩ | ⟨p, hp, hproduct, hporg, hcases⟩
  · exact .first hmem hnew hnone hmembers
  · rcases hcases with ⟨hother, rfl⟩ | ⟨hsame, rfl⟩
    · exact .moves hmem hnew hp hproduct hporg hother hmembers
    · -- The bundle that has the pointer is active, so that nothing changes.
      obtain ⟨x, hx, htarget, hactive⟩ := hsound.target p hp
      obtain rfl := hsound.bundles.eq hx hmem (htarget.1.trans hsame)
      have hstays : Catalog.activate x pointed.bundles = pointed.bundles :=
        Catalog.activate_of_active hsound.bundles hmem hactive
      have hsame : (⟨Catalog.activate x pointed.bundles, pointed.members, pointed.activeBundles⟩ :
          Catalog) = pointed.catalog := by
        rw [hstays]
        rfl
      show Catalog.Change rt pointed.catalog ⟨Catalog.activate x pointed.bundles, pointed.members,
        pointed.activeBundles⟩
      rw [hsame]
      exact .stays

theorem tables_of_activateBundle {bundleId actorId expectedDigest : String} {b : ProductBundle}
    (h : activateBundle rt organizationId bundleId actorId expectedDigest db = .ok (b, db')) :
    ∃ bundles pointers events, db' = { db with
      bundles := bundles
      activeBundles := pointers
      outbox := events } := by
  unfold activateBundle at h
  split at h
  · cases h
  next bundle hfind =>
  have hkeys := List.find?_some hfind
  simp only [decide_eq_true_eq] at hkeys
  obtain ⟨-, h⟩ := unless_throw_eq_ok.mp h
  obtain ⟨-, h⟩ := unless_throw_eq_ok.mp h
  obtain ⟨computedDigest, -, h⟩ := bind_eq_ok.mp h
  obtain ⟨-, h⟩ := unless_throw_eq_ok.mp h
  obtain ⟨pointed, hpoint, h⟩ := bind_eq_ok.mp h
  obtain ⟨added, hadd, h⟩ := bind_eq_ok.mp h
  obtain ⟨-, rfl⟩ := addOutbox_eq_ok.mp hadd
  cases h
  rcases pointTo_eq_ok hkeys.1 hpoint with ⟨-, rfl⟩ | ⟨p, -, -, -, ⟨-, rfl⟩ | ⟨-, rfl⟩⟩
  · exact ⟨_, _, _, rfl⟩
  · exact ⟨_, _, _, rfl⟩
  · exact ⟨_, _, _, rfl⟩

end Activation

end Persistence
