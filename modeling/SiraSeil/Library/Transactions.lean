-- SUMMARY: Transactions that commit or roll back over one store: runs of them, the rule for invariants of all runs, and the rule for what every run can only grow.
import Mathlib.Data.List.Basic
import Mathlib.Data.List.Induction

/-!
# Transactions

A transaction reads the whole store and either commits, with a result and the store
it leaves, or raises, and then the store stays as it was. Serializable transactions
run one after the other, in some order.
-/

namespace Transactions

variable {σ τ ε α : Type} (f : τ → σ → Except ε (α × σ))

/-- The store after a transaction. -/
def after (s : σ) (t : τ) : σ :=
  match f t s with
  | .ok (_, s') => s'
  | .error _ => s

/-- The store after transactions in their order. -/
def run (s : σ) (ts : List τ) : σ :=
  ts.foldl (after f) s

variable {f} {s s' : σ} {t : τ} {ts : List τ} {a : α}

theorem after_of_ok (h : f t s = .ok (a, s')) : after f s t = s' := by
  unfold after
  rw [h]

theorem after_of_error {e : ε} (h : f t s = .error e) : after f s t = s := by
  unfold after
  rw [h]

theorem run_append (s : σ) (ts later : List τ) : run f s (ts ++ later) = run f (run f s ts) later :=
  List.foldl_append

theorem after_cases (s : σ) (t : τ) :
    (∃ a s', f t s = .ok (a, s') ∧ after f s t = s') ∨
      ∃ e, f t s = .error e ∧ after f s t = s := by
  cases h : f t s with
  | ok r => exact .inl ⟨r.1, r.2, rfl, after_of_ok h⟩
  | error e => exact .inr ⟨e, rfl, after_of_error h⟩

variable {I : σ → Prop} {ok : τ → σ → Prop}

theorem run_induction (hcommit : ∀ t s a s', I s → f t s = .ok (a, s') → I s') (hinit : I s)
    (ts : List τ) : I (run f s ts) := by
  induction ts generalizing s with
  | nil => exact hinit
  | cons t ts ih =>
    apply ih
    rcases after_cases (f := f) s t with ⟨a, s', hok, heq⟩ | ⟨e, -, heq⟩
    · rw [heq]
      exact hcommit t s a s' hinit hok
    · rw [heq]
      exact hinit

theorem run_related {R : σ → σ → Prop} (hrefl : ∀ s, R s s)
    (htrans : ∀ s₁ s₂ s₃, R s₁ s₂ → R s₂ s₃ → R s₁ s₃)
    (hcommit : ∀ t s a s', I s → f t s = .ok (a, s') → I s' ∧ R s s') (hinit : I s)
    (ts : List τ) : R s (run f s ts) := by
  induction ts generalizing s with
  | nil => exact hrefl s
  | cons t ts ih =>
    rcases after_cases (f := f) s t with ⟨a, s', hok, heq⟩ | ⟨e, -, heq⟩
    · obtain ⟨hinit', hrelated⟩ := hcommit t s a s' hinit hok
      rw [← heq] at hinit' hrelated
      exact htrans _ _ _ hrelated (ih hinit')
    · have hlater := ih hinit
      show R s (run f (after f s t) ts)
      rw [heq]
      exact hlater

/-- Every transaction of a run meets a condition on the store it runs in. -/
def Along (f : τ → σ → Except ε (α × σ)) (ok : τ → σ → Prop) : σ → List τ → Prop
  | _, [] => True
  | s, t :: ts => ok t s ∧ Along f ok (after f s t) ts

/-- What every commit of an allowed transaction preserves holds after every allowed run. -/
theorem run_along (hcommit : ∀ t s a s', I s → ok t s → f t s = .ok (a, s') → I s') (hinit : I s)
    (halong : Along f ok s ts) : I (run f s ts) := by
  induction ts generalizing s with
  | nil => exact hinit
  | cons t ts ih =>
    obtain ⟨hok, hlater⟩ := halong
    refine ih ?_ hlater
    rcases after_cases (f := f) s t with ⟨a, s', hcommitted, heq⟩ | ⟨e, -, heq⟩
    · rw [heq]
      exact hcommit t s a s' hinit hok hcommitted
    · rw [heq]
      exact hinit

theorem run_concat (s : σ) (ts : List τ) (t : τ) : run f s (ts ++ [t]) = after f (run f s ts) t :=
  run_append s ts [t]

theorem along_append {later : List τ} :
    Along f ok s (ts ++ later) ↔ Along f ok s ts ∧ Along f ok (run f s ts) later := by
  induction ts generalizing s with
  | nil => exact ⟨fun h => ⟨trivial, h⟩, And.right⟩
  | cons t ts ih =>
    rw [List.cons_append, Along, Along, ih, and_assoc]
    rfl

/-- What every commit of an allowed transaction preserves, of the transactions so far and the
    store, holds after every allowed run, if it does not need a transaction that raised. -/
theorem run_history {I : List τ → σ → Prop}
    (hcommit : ∀ done t s a s', I done s → ok t s → f t s = .ok (a, s') → I (done ++ [t]) s')
    (hraise : ∀ done t s, I done s → I (done ++ [t]) s) (hinit : I [] s)
    (halong : Along f ok s ts) : I ts (run f s ts) := by
  induction ts using List.reverseRecOn with
  | nil => exact hinit
  | append_singleton ts t ih =>
    obtain ⟨hbefore, hok, -⟩ := along_append.mp halong
    have hdone := ih hbefore
    rw [run_concat]
    rcases after_cases (f := f) (run f s ts) t with ⟨a, s', hcommitted, heq⟩ | ⟨e, -, heq⟩
    · rw [heq]
      exact hcommit ts t _ a s' hdone hok hcommitted
    · rw [heq]
      exact hraise ts t _ hdone

/-- Where the last transaction of a run alone is of some kind, a transaction of the kind is it. -/
theorem eq_of_last {p : τ → Bool} {ts before later : List τ} {t u : τ}
    (hother : ∀ x ∈ ts, p x = false) (hts : ts ++ [u] = before ++ t :: later) (ht : p t = true) :
    before = ts ∧ t = u := by
  rcases List.eq_nil_or_concat later with rfl | ⟨later, z, rfl⟩
  · obtain ⟨hbefore, hlast⟩ := List.append_inj' hts rfl
    exact ⟨hbefore.symm, (List.cons.inj hlast).1.symm⟩
  · rw [List.concat_eq_append, ← List.cons_append, ← List.append_assoc] at hts
    have hmem : t ∈ ts := by
      rw [(List.append_inj' hts rfl).1]
      exact List.mem_append_right _ List.mem_cons_self
    rw [hother t hmem] at ht
    cases ht

end Transactions
