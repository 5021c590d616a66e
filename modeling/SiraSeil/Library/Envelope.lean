-- SUMMARY: Comparing two families of keys through the greatest key of one and the least key of the other.
import Mathlib.Order.Bounds.Basic
import Mathlib.Data.Prod.Lex

/-!
# Envelopes

When one of two families of keys has a greatest member and the other a least
one, every comparison across the families is decided by these two.
-/

namespace Envelope

variable {ι ι' κ : Type*} [LinearOrder κ] {f : ι → κ} {g : ι' → κ} {S : Set ι} {T : Set ι'}
  {top bottom : κ}

theorem exists_lt_iff (htop : IsGreatest (f '' S) top) (hbottom : IsLeast (g '' T) bottom) :
    (∃ x ∈ S, ∃ y ∈ T, g y < f x) ↔ bottom < top := by
  obtain ⟨⟨x, hx, rfl⟩, hub⟩ := htop
  obtain ⟨⟨y, hy, rfl⟩, hlb⟩ := hbottom
  constructor
  · rintro ⟨x', hx', y', hy', h⟩
    calc g y ≤ g y' := hlb (Set.mem_image_of_mem g hy')
      _ < f x' := h
      _ ≤ f x := hub (Set.mem_image_of_mem f hx')
  · intro h
    exact ⟨x, hx, y, hy, h⟩

theorem toLex_le_toLex {α β : Type*} [PartialOrder α] [Preorder β] {a a' : α} {b b' : β}
    (ha : a ≤ a') (hb : b ≤ b') : toLex (a, b) ≤ toLex (a', b') :=
  Prod.Lex.toLex_mono (Prod.mk_le_mk.mpr ⟨ha, hb⟩)

end Envelope
