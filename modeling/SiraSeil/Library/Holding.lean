-- SUMMARY: Keys that calls hold until a store logs them: a key that is taken only while it is free is logged at most once.
import SiraSeil.Library.Interleaving
import Mathlib.Data.List.Perm.Basic

/-!
# Held keys

A call takes a key at one step and logs it at a later one. Between the two steps other
calls may take keys and log them, and the call may crash, which gives its key up.
-/

namespace Interleaving

theorem filterMap_perm {α β : Type} {f : α → Option β} {l : List α} {i : Nat} {a : α}
    (h : l[i]? = some a) : (l.filterMap f).Perm ((f a).toList ++ (l.eraseIdx i).filterMap f) := by
  obtain ⟨hi, rfl⟩ := List.getElem?_eq_some_iff.mp h
  have hperm : l.Perm (l[i] :: l.eraseIdx i) := (List.getElem_cons_eraseIdx_perm hi).symm
  refine (hperm.filterMap f).trans (List.Perm.of_eq ?_)
  rw [List.filterMap_cons]
  cases f l[i] <;> rfl

theorem filterMap_set_perm {α β : Type} {f : α → Option β} {l : List α} {i : Nat} {a b : α}
    (h : l[i]? = some a) :
    ((l.set i b).filterMap f).Perm ((f b).toList ++ (l.eraseIdx i).filterMap f) := by
  obtain ⟨hi, -⟩ := List.getElem?_eq_some_iff.mp h
  have hset : (l.set i b)[i]? = some b := List.getElem?_set_self hi
  rw [← List.eraseIdx_set_eq (a := b)]
  exact filterMap_perm hset

namespace System

variable {σ τ ρ κ K : Type} {sys : System σ τ ρ κ} (held : τ → Option K) (logged : σ → List K)

/-- The keys that are logged or held -/
def keys (w : World σ τ) : List K :=
  logged w.store ++ w.calls.filterMap held

/-- What a step of a call does with keys: it keeps its own, gives it up, takes a free one, or logs
    the one it holds. -/
inductive Handles (w : World σ τ) (c c' : τ) (s' : σ) : Prop
  | keeps (hheld : held c' = held c) (hlogged : logged s' = logged w.store)
  | drops (hheld : held c' = none) (hlogged : logged s' = logged w.store)
  | takes (k : K) (hfree : k ∉ keys held logged w) (hnone : held c = none)
      (hheld : held c' = some k) (hlogged : logged s' = logged w.store)
  | logs (k : K) (hheld : held c = some k) (hnone : held c' = none)
      (hlogged : logged s' = logged w.store ++ [k])

variable {held logged} {ok : World σ τ → Event ρ κ → Prop}

theorem nodup_keys_advance {w : World σ τ} {i : Nat} {given : κ} {c : τ} (hc : w.calls[i]? = some c)
    (hhandles : Handles held logged w c (sys.next c given w.store).1 (sys.next c given w.store).2)
    (hkeys : (keys held logged w).Nodup) :
    (keys held logged (sys.step w (.advance i given))).Nodup := by
  have hworld : sys.step w (.advance i given) = ⟨(sys.next c given w.store).2,
      w.calls.set i (sys.next c given w.store).1⟩ := by
    simp only [System.step, hc]
  rw [hworld]
  generalize sys.next c given w.store = next at hhandles
  obtain ⟨c', s'⟩ := next
  unfold keys at hkeys ⊢
  have hbefore := (filterMap_perm (f := held) hc).append_left (logged w.store)
  have hafter := (filterMap_set_perm (f := held) (b := c') hc).append_left (logged s')
  rw [hbefore.nodup_iff] at hkeys
  rw [hafter.nodup_iff]
  cases hhandles with
  | keeps hheld hlogged =>
    rw [hheld, hlogged]
    exact hkeys
  | drops hheld hlogged =>
    rw [hheld, hlogged]
    refine hkeys.sublist ?_
    exact List.Sublist.append_left (List.sublist_append_right _ _) _
  | takes k hfree hnone hheld hlogged =>
    have hfree : k ∉ logged w.store ++ ((held c).toList ++ (w.calls.eraseIdx i).filterMap held) :=
      fun hmem => hfree (hbefore.mem_iff.mpr hmem)
    rw [hnone] at hkeys hfree
    rw [hheld, hlogged]
    exact (List.perm_middle.nodup_iff).mpr (List.nodup_cons.mpr ⟨hfree, hkeys⟩)
  | logs k hheld hnone hlogged =>
    rw [hheld] at hkeys
    rw [hnone, hlogged]
    show ((logged w.store ++ [k]) ++ (w.calls.eraseIdx i).filterMap held).Nodup
    rw [List.append_assoc]
    exact hkeys

/-- If every allowed step takes free keys only, no key is logged twice in an allowed run. -/
theorem nodup_keys_run
    (hstart : ∀ s request given, held (sys.start request given s) = none)
    (hstep : ∀ w i given c, ok w (.advance i given) → w.calls[i]? = some c →
      Handles held logged w c (sys.next c given w.store).1 (sys.next c given w.store).2)
    {w : World σ τ} {events : List (Event ρ κ)} (hkeys : (keys held logged w).Nodup)
    (halong : sys.Along ok w events) : (keys held logged (sys.run w events)).Nodup := by
  refine run_induction (I := fun w => (keys held logged w).Nodup) ?_ hkeys halong
  intro w e hkeys hok
  cases e with
  | start request given =>
    unfold keys
    simp only [System.step, List.filterMap_append, List.filterMap_cons, List.filterMap_nil,
      hstart, List.append_nil]
    exact hkeys
  | advance i given =>
    cases hc : w.calls[i]? with
    | none =>
      simp only [System.step, hc]
      exact hkeys
    | some c => exact nodup_keys_advance hc (hstep w i given c hok hc) hkeys
  | crash i =>
    refine hkeys.sublist ?_
    exact List.Sublist.append_left ((List.eraseIdx_sublist w.calls i).filterMap held) _

end System

end Interleaving
