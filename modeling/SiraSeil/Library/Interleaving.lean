-- SUMMARY: Calls that run as sequences of atomic steps over one store: worlds, events, runs, crashes, and the rule for invariants of all interleavings.
import Mathlib.Data.List.InsertIdx

/-!
# Interleavings

A call takes its steps one at a time, each of them atomic on a shared store. Between
two steps of a call any other call may take one, and a call may crash, after which
it takes no more. An event carries what the outside gives to a step, such as a
reading of the clock.
-/

namespace Interleaving

/-- What a request starts, and what a call does at its next step. -/
structure System (σ τ ρ κ : Type) where
  start : ρ → κ → σ → τ
  next : τ → κ → σ → τ × σ

/-- The store, and the calls that have not crashed. -/
structure World (σ τ : Type) where
  store : σ
  calls : List τ

inductive Event (ρ κ : Type)
  | start (request : ρ) (given : κ)
  | advance (i : Nat) (given : κ)
  | crash (i : Nat)

/-- A transaction commits, or it raises and leaves the store as it was. -/
def commit {σ τ ε α : Type} (s : σ) (returns : α → τ) (raises : ε → τ) :
    Except ε (α × σ) → τ × σ
  | .ok (a, s') => (returns a, s')
  | .error e => (raises e, s)

namespace System

variable {σ τ ρ κ : Type} (sys : System σ τ ρ κ)

def step (w : World σ τ) : Event ρ κ → World σ τ
  | .start request given => { w with calls := w.calls ++ [sys.start request given w.store] }
  | .advance i given =>
    match w.calls[i]? with
    | some c =>
      { store := (sys.next c given w.store).2,
        calls := w.calls.set i (sys.next c given w.store).1 }
    | none => w
  | .crash i => { w with calls := w.calls.eraseIdx i }

def run (w : World σ τ) (events : List (Event ρ κ)) : World σ τ :=
  events.foldl sys.step w

/-- Every event of the run satisfies a condition in the world it meets. -/
def Along (ok : World σ τ → Event ρ κ → Prop) : World σ τ → List (Event ρ κ) → Prop
  | _, [] => True
  | w, e :: events => ok w e ∧ Along ok (sys.step w e) events

instance decidableAlong (ok : World σ τ → Event ρ κ → Prop) [∀ w e, Decidable (ok w e)] :
    (w : World σ τ) → (events : List (Event ρ κ)) → Decidable (sys.Along ok w events)
  | _, [] => .isTrue trivial
  | w, e :: events =>
    have := decidableAlong ok (sys.step w e) events
    inferInstanceAs (Decidable (_ ∧ _))

variable {sys} {ok : World σ τ → Event ρ κ → Prop}

theorem run_append (w : World σ τ) (events later : List (Event ρ κ)) :
    sys.run w (events ++ later) = sys.run (sys.run w events) later :=
  List.foldl_append

variable {w : World σ τ} {events : List (Event ρ κ)}

theorem run_advance {i : Nat} {c : τ} (h : w.calls[i]? = some c) (given : κ) :
    (sys.run w [.advance i given]).store = (sys.next c given w.store).2 := by
  show (sys.step w (.advance i given)).store = _
  simp only [step, h]

theorem along_append {later : List (Event ρ κ)} :
    sys.Along ok w (events ++ later) ↔
      sys.Along ok w events ∧ sys.Along ok (sys.run w events) later := by
  induction events generalizing w with
  | nil => simp [Along, run]
  | cons e events ih =>
    simp only [List.cons_append, Along, ih, and_assoc]
    rfl

theorem along_of_forall (h : ∀ w e, ok w e) (w : World σ τ) (events : List (Event ρ κ)) :
    sys.Along ok w events := by
  induction events generalizing w with
  | nil => exact trivial
  | cons e events ih => exact ⟨h w e, ih (sys.step w e)⟩

theorem Along.imp {ok' : World σ τ → Event ρ κ → Prop} (himp : ∀ w e, ok w e → ok' w e)
    (h : sys.Along ok w events) : sys.Along ok' w events := by
  induction events generalizing w with
  | nil => exact trivial
  | cons e events ih => exact ⟨himp w e h.1, ih h.2⟩

theorem run_induction {I : World σ τ → Prop} (hstep : ∀ w e, I w → ok w e → I (sys.step w e))
    (hinit : I w) (halong : sys.Along ok w events) : I (sys.run w events) := by
  induction events generalizing w with
  | nil => exact hinit
  | cons e events ih => exact ih (hstep w e hinit halong.1) halong.2

theorem along_of_inv {I : World σ τ → Prop} {ok' : World σ τ → Event ρ κ → Prop}
    (hstep : ∀ w e, I w → ok w e → I (sys.step w e)) (hgives : ∀ w e, I w → ok w e → ok' w e)
    (hinit : I w) (halong : sys.Along ok w events) : sys.Along ok' w events := by
  induction events generalizing w with
  | nil => exact trivial
  | cons e events ih =>
    exact ⟨hgives w e hinit halong.1, ih (hstep w e hinit halong.1) halong.2⟩

/-! ## Invariants of the store and of each call -/

/-- A condition on the steps of calls, as one on events. -/
def StepsMeet (allowed : τ → κ → σ → Prop) (w : World σ τ) : Event ρ κ → Prop
  | .advance i given => ∀ c, w.calls[i]? = some c → allowed c given w.store
  | _ => True

theorem StepsMeet.imp {allowed allowed' : τ → κ → σ → Prop}
    (himp : ∀ c given s, allowed c given s → allowed' c given s) (w : World σ τ) (e : Event ρ κ)
    (h : StepsMeet allowed w e) : StepsMeet allowed' w e := by
  cases e with
  | advance i given => exact fun c hc => himp c given w.store (h c hc)
  | _ => exact trivial

instance (allowed : τ → κ → σ → Prop) [∀ c given s, Decidable (allowed c given s)] :
    (w : World σ τ) → (e : Event ρ κ) → Decidable (StepsMeet allowed w e)
  | w, .advance i given => decidable_of_iff (∀ c ∈ w.calls[i]?, allowed c given w.store) Iff.rfl
  | _, .start _ _ => .isTrue trivial
  | _, .crash _ => .isTrue trivial

/-- An invariant of the store, and a condition on each call that the steps of the other
    calls do not disturb. -/
structure Outline (sys : System σ τ ρ κ) (allowed : τ → κ → σ → Prop) (I : σ → Prop)
    (J : σ → τ → Prop) : Prop where
  start : ∀ s request given, I s → J s (sys.start request given s)
  store : ∀ s c given, I s → J s c → allowed c given s → I (sys.next c given s).2
  own : ∀ s c given, I s → J s c → allowed c given s →
    J (sys.next c given s).2 (sys.next c given s).1
  other : ∀ s c d given, I s → J s c → J s d → allowed c given s → J (sys.next c given s).2 d

variable {allowed : τ → κ → σ → Prop} {I : σ → Prop} {J : σ → τ → Prop}

theorem Outline.step (h : Outline sys allowed I J) (w : World σ τ) (e : Event ρ κ)
    (hw : I w.store ∧ ∀ c ∈ w.calls, J w.store c) (hok : StepsMeet allowed w e) :
    I (sys.step w e).store ∧ ∀ c ∈ (sys.step w e).calls, J (sys.step w e).store c := by
  cases e with
  | start request given =>
    refine ⟨hw.1, ?_⟩
    intro c hc
    rcases List.mem_append.mp hc with hc | hc
    · exact hw.2 c hc
    · rw [List.mem_singleton.mp hc]
      exact h.start w.store request given hw.1
  | advance i given =>
    simp only [System.step]
    split
    · next c hi =>
      have hc : J w.store c := hw.2 c (List.mem_of_getElem? hi)
      refine ⟨h.store w.store c given hw.1 hc (hok c hi), ?_⟩
      intro d hd
      rcases List.mem_or_eq_of_mem_set hd with hd | rfl
      · exact h.other w.store c d given hw.1 hc (hw.2 d hd) (hok c hi)
      · exact h.own w.store c given hw.1 hc (hok c hi)
    · exact hw
  | crash i => exact ⟨hw.1, fun c hc => hw.2 c (List.mem_of_mem_eraseIdx hc)⟩

theorem Outline.run (h : Outline sys allowed I J) (hstore : I w.store)
    (hcalls : ∀ c ∈ w.calls, J w.store c) (halong : sys.Along (StepsMeet allowed) w events) :
    I (sys.run w events).store ∧ ∀ c ∈ (sys.run w events).calls, J (sys.run w events).store c :=
  run_induction (I := fun w => I w.store ∧ ∀ c ∈ w.calls, J w.store c)
    (fun w e hw hok => h.step w e hw hok) ⟨hstore, hcalls⟩ halong

/-- What the own steps of a call keep, whatever the store is, holds of every call of a run. -/
theorem calls_run {P : τ → Prop} (hstart : ∀ s request given, P (sys.start request given s))
    (hnext : ∀ s c given, P c → P (sys.next c given s).1) (hcalls : ∀ c ∈ w.calls, P c)
    (events : List (Event ρ κ)) : ∀ c ∈ (sys.run w events).calls, P c := by
  have houtline : Outline sys (fun _ _ _ => True) (fun _ => True) (fun _ => P) :=
    ⟨fun s request given _ => hstart s request given, fun _ _ _ _ _ _ => trivial,
      fun s c given _ hc _ => hnext s c given hc, fun _ _ _ _ _ _ hd _ => hd⟩
  have halong : sys.Along (StepsMeet (fun _ _ _ => True)) w events := by
    refine along_of_forall (fun w e => ?_) w events
    cases e with
    | advance i given => exact fun _ _ => trivial
    | _ => exact trivial
  exact (houtline.run trivial hcalls halong).2

/-- What every allowed step relates, every allowed run relates, if the relation is a
    preorder. -/
theorem Outline.run_related (h : Outline sys allowed I J) {R : σ → σ → Prop} (hrefl : ∀ s, R s s)
    (htrans : ∀ s₁ s₂ s₃, R s₁ s₂ → R s₂ s₃ → R s₁ s₃)
    (hstep : ∀ s c given, I s → J s c → allowed c given s → R s (sys.next c given s).2)
    (hstore : I w.store) (hcalls : ∀ c ∈ w.calls, J w.store c)
    (halong : sys.Along (StepsMeet allowed) w events) : R w.store (sys.run w events).store := by
  induction events generalizing w with
  | nil => exact hrefl _
  | cons e events ih =>
    obtain ⟨hok, halong⟩ := halong
    obtain ⟨hstore', hcalls'⟩ := h.step w e ⟨hstore, hcalls⟩ hok
    have hrelated : R w.store (sys.step w e).store := by
      cases e with
      | start request given => exact hrefl _
      | crash i => exact hrefl _
      | advance i given =>
        simp only [System.step]
        split
        · next c hi => exact hstep _ c given hstore (hcalls c (List.mem_of_getElem? hi)) (hok c hi)
        · exact hrefl _
    exact htrans _ _ _ hrelated (ih hstore' hcalls' halong)

/-! ## Calls with their requests -/

variable (sys) in
/-- The system in which every call carries the request that started it. -/
def labelled : System σ (ρ × τ) ρ κ where
  start request given s := (request, sys.start request given s)
  next c given s := ((c.1, (sys.next c.2 given s).1), (sys.next c.2 given s).2)

/-- The requests of the calls are forgotten. -/
def forget (w : World σ (ρ × τ)) : World σ τ :=
  ⟨w.store, w.calls.map Prod.snd⟩

theorem forget_step (w : World σ (ρ × τ)) (e : Event ρ κ) :
    forget (sys.labelled.step w e) = sys.step (forget w) e := by
  cases e with
  | start request given => simp [forget, System.step, labelled]
  | crash i => simp [forget, System.step, List.eraseIdx_map]
  | advance i given =>
    simp only [forget, System.step, List.getElem?_map]
    cases hcall : w.calls[i]? with
    | none => rfl
    | some c => simp [labelled, List.map_set]

theorem forget_run (w : World σ (ρ × τ)) (events : List (Event ρ κ)) :
    forget (sys.labelled.run w events) = sys.run (forget w) events := by
  induction events generalizing w with
  | nil => rfl
  | cons e events ih =>
    show forget (sys.labelled.run (sys.labelled.step w e) events) =
      sys.run (sys.step (forget w) e) events
    rw [ih, forget_step]

end System

end Interleaving
