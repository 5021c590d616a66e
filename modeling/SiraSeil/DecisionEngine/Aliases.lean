-- SUMMARY: Canonical names: following the aliases of an acyclic map ends, ends where no alias starts, and leaves canonical names as they are.
import SiraSeil.DecisionEngine.Recall
import Mathlib.Logic.Relation

/-!
# Canonical names

`_canonical` folds a name and follows its alias until a name without an alias is
reached. On an acyclic alias map that always happens, and the name reached is
the one end of the chain.
-/

namespace DecisionEngine

open Domain Sorting

variable {rt : Runtime} {aliases : Dict String String}

/-! ## Chains of aliases -/

/-- One alias is followed. -/
def AliasStep (aliases : Dict String String) (source target : String) : Prop :=
  aliases.get? source = some target

/-- No chain of aliases returns to where it started. -/
def Acyclic (aliases : Dict String String) : Prop :=
  ∀ name, ¬ Relation.TransGen (AliasStep aliases) name name

/-- The chain from `name` ends in `last`. -/
structure EndsIn (aliases : Dict String String) (name last : String) : Prop where
  chain : Relation.ReflTransGen (AliasStep aliases) name last
  final : aliases.get? last = none

variable {last name : String}

theorem EndsIn.of_final (h : aliases.get? name = none) : EndsIn aliases name name :=
  ⟨.refl, h⟩

theorem EndsIn.head {next : String} (hstep : AliasStep aliases name next)
    (h : EndsIn aliases next last) : EndsIn aliases name last :=
  ⟨h.chain.head hstep, h.final⟩

/-- What `_canonical` returns is the end of the chain. -/
theorem endsIn_of_chaseAlias {fuel : Nat} {visited : List String}
    (h : chaseAlias aliases fuel visited name = .ok last) : EndsIn aliases name last := by
  induction fuel generalizing visited name with
  | zero => cases h
  | succ fuel ih =>
    unfold chaseAlias at h
    split at h
    · rename_i hfinal
      cases h
      exact EndsIn.of_final hfinal
    · rename_i target hstep
      split at h
      · cases h
      · exact (ih h).head hstep

/-- The loop ends on an acyclic map: the names visited are distinct sources, so
    there are fewer of them than rounds. -/
theorem exists_chaseAlias (hacyclic : Acyclic aliases) {fuel : Nat} {visited : List String}
    (hfuel : aliases.items.length < fuel + visited.length) (hnodup : visited.Nodup)
    (hsources : visited ⊆ aliases.items.map Prod.fst)
    (hreach : ∀ source ∈ visited, Relation.TransGen (AliasStep aliases) source name) :
    ∃ last, chaseAlias aliases fuel visited name = .ok last := by
  induction fuel generalizing visited name with
  | zero =>
    have hle : visited.length ≤ (aliases.items.map Prod.fst).length :=
      (List.subperm_of_subset hnodup hsources).length_le
    rw [List.length_map] at hle
    omega
  | succ fuel ih =>
    unfold chaseAlias
    split
    · exact ⟨name, rfl⟩
    · rename_i target hstep
      have hfresh : name ∉ visited := fun hmem => hacyclic name (hreach name hmem)
      rw [if_neg hfresh]
      apply ih
      · rw [List.length_cons]
        omega
      · exact List.nodup_cons.mpr ⟨hfresh, hnodup⟩
      · refine List.cons_subset.mpr ⟨?_, hsources⟩
        exact List.mem_map_of_mem (Dict.get?_eq_some_iff.mp hstep)
      · intro source hsource
        rcases List.mem_cons.mp hsource with rfl | hsource
        · exact .single hstep
        · exact (hreach source hsource).tail hstep

/-! ## Canonical forms -/

theorem endsIn_of_canonical (h : canonical rt name aliases = .ok last) :
    EndsIn aliases (fold rt name) last :=
  endsIn_of_chaseAlias h

theorem exists_canonical (hacyclic : Acyclic aliases) (rt : Runtime) (name : String) :
    ∃ last, canonical rt name aliases = .ok last :=
  exists_chaseAlias hacyclic (Nat.lt_succ_self _) List.nodup_nil (List.nil_subset _) nofun

/-- Folding a folded name changes nothing. -/
def FoldStable (rt : Runtime) : Prop :=
  ∀ name, fold rt (fold rt name) = fold rt name

/-- The aliases are folded on both sides, as `IdentityNormalization` leaves them. -/
def FoldedAliases (rt : Runtime) (aliases : Dict String String) : Prop :=
  ∀ item ∈ aliases.items, ∃ source target, item = (fold rt source, fold rt target)

theorem EndsIn.folded (hstable : FoldStable rt) (hfolded : FoldedAliases rt aliases)
    (h : EndsIn aliases name last) (hname : fold rt name = name) : fold rt last = last := by
  have hchain := h.chain
  induction hchain with
  | refl => exact hname
  | tail _ hstep _ =>
    obtain ⟨source, target, heq⟩ := hfolded _ (Dict.get?_eq_some_iff.mp hstep)
    rw [(Prod.mk.inj heq).2]
    exact hstable target

theorem canonical_of_canonical (hstable : FoldStable rt) (hfolded : FoldedAliases rt aliases)
    (h : canonical rt name aliases = .ok last) : canonical rt last aliases = .ok last := by
  have hend := endsIn_of_canonical h
  have hlast : fold rt last = last := hend.folded hstable hfolded (hstable name)
  unfold canonical chaseAlias
  rw [hlast, hend.final]

end DecisionEngine
