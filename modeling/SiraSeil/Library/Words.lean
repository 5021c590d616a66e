-- SUMMARY: The words of a text, the text that joins them with separators, and what such a text says about them.
import Mathlib.Data.List.DropRight
import Mathlib.Data.List.Infix

/-!
# Words

A word is a longest run of the letters that a predicate keeps. Replacing every run of other letters
by one separator, and stripping the separators at the ends, joins the words with separators.
-/

namespace Words

variable {α : Type}

/-- The text with a separator for every run of letters that are not kept. The flag says that a run
    is going on. -/
def collapse (keep : α → Bool) (sep : α) : Bool → List α → List α
  | _, [] => []
  | going, c :: rest =>
    if keep c then c :: collapse keep sep false rest
    else if going then collapse keep sep true rest
    else sep :: collapse keep sep true rest

/-- The words of a text -/
def words (keep : α → Bool) (text : List α) : List (List α) :=
  (text.splitOnP (fun c => !keep c)).filter (fun w => !w.isEmpty)

/-- The words with a separator between any two -/
abbrev joined (sep : α) (ws : List (List α)) : List α :=
  [sep].intercalate ws

variable {keep : α → Bool} {sep : α}

theorem joined_append {ws ws' : List (List α)} (h : ws ≠ []) (h' : ws' ≠ []) :
    joined sep (ws ++ ws') = joined sep ws ++ sep :: joined sep ws' := by
  induction ws with
  | nil => exact absurd rfl h
  | cons w ws ih =>
    cases ws with
    | nil => simp [List.intercalate_cons_of_ne_nil h']
    | cons v ws =>
      rw [List.cons_append, List.cons_append, joined, List.intercalate_cons_cons, ← List.cons_append]
      simp [joined] at ih
      simp [ih]

theorem rdropWhile_cons {p : α → Bool} {c : α} {text : List α} :
    (c :: text).rdropWhile p =
      if text.rdropWhile p = [] ∧ p c = true then [] else c :: text.rdropWhile p := by
  unfold List.rdropWhile
  rw [List.reverse_cons, List.dropWhile_append]
  cases hrest : text.reverse.dropWhile p with
  | nil => cases hc : p c <;> simp [List.dropWhile, hc]
  | cons d rest => simp

theorem joined_eq_nil {ws : List (List α)} (h : ∀ w ∈ ws, w ≠ []) : joined sep ws = [] ↔ ws = [] := by
  cases ws with
  | nil => simp
  | cons w ws =>
    have hw := h w List.mem_cons_self
    cases ws with
    | nil => simpa using hw
    | cons v ws => simp [joined, List.intercalate_cons_cons, hw]

theorem ne_nil_of_mem_filter {pieces : List (List α)} {w : List α}
    (h : w ∈ pieces.filter (fun w => !w.isEmpty)) : w ≠ [] := by
  have hw := (List.mem_filter.mp h).2
  rintro rfl
  cases hw

theorem keep_of_mem_splitOnP {p : α → Bool} {text piece : List α} (h : piece ∈ text.splitOnP p) :
    ∀ c ∈ piece, c ∈ text ∧ p c = false := by
  induction text generalizing piece with
  | nil => simp_all
  | cons d text ih =>
    rw [List.splitOnP_cons_eq_if_modifyHead] at h
    intro c hc
    by_cases hd : p d = true
    · rw [if_pos hd] at h
      rcases List.mem_cons.mp h with rfl | h
      · cases hc
      · exact ⟨List.mem_cons_of_mem d (ih h c hc).1, (ih h c hc).2⟩
    · rw [if_neg hd] at h
      obtain ⟨first, pieces, hpieces⟩ := List.exists_cons_of_ne_nil (List.splitOnP_ne_nil p text)
      rw [hpieces] at h ih
      rcases List.mem_cons.mp h with rfl | h
      · rcases List.mem_cons.mp hc with rfl | hc
        · exact ⟨List.mem_cons_self, by simpa using hd⟩
        · have hkept := ih List.mem_cons_self c hc
          exact ⟨List.mem_cons_of_mem d hkept.1, hkept.2⟩
      · have hkept := ih (List.mem_cons_of_mem first h) c hc
        exact ⟨List.mem_cons_of_mem d hkept.1, hkept.2⟩

theorem keep_of_mem_words {text w : List α} (h : w ∈ words keep text) :
    ∀ c ∈ w, c ∈ text ∧ keep c = true := by
  intro c hc
  have hpiece := keep_of_mem_splitOnP (List.mem_filter.mp h).1 c hc
  exact ⟨hpiece.1, by simpa using hpiece.2⟩

section Strip

variable [DecidableEq α]

/-- The text without the separators at its ends -/
def strip (sep : α) (text : List α) : List α :=
  (text.dropWhile (· = sep)).rdropWhile (· = sep)

theorem dropWhile_collapse (hsep : keep sep = false) (going : Bool) (text : List α) :
    (collapse keep sep going text).dropWhile (· = sep) = collapse keep sep true text := by
  induction text generalizing going with
  | nil => rfl
  | cons c text ih =>
    unfold collapse
    by_cases hkeep : keep c = true
    · have hne : c ≠ sep := by
        rintro rfl
        rw [hsep] at hkeep
        cases hkeep
      simp [hkeep, hne]
    · cases going <;> simp [hkeep, ih]

theorem rdropWhile_collapse (hsep : keep sep = false) (text : List α) :
    (collapse keep sep true text).rdropWhile (· = sep) = joined sep (words keep text) ∧
      ∀ first pieces, text.splitOnP (fun c => !keep c) = first :: pieces →
        (collapse keep sep false text).rdropWhile (· = sep) =
          first ++ if pieces.filter (fun w => !w.isEmpty) = [] then []
            else sep :: joined sep (pieces.filter (fun w => !w.isEmpty)) := by
  induction text with
  | nil =>
    refine ⟨by simp [collapse, words], ?_⟩
    intro first pieces h
    simp only [List.splitOnP_nil, List.cons.injEq] at h
    obtain ⟨rfl, rfl⟩ := h
    simp [collapse]
  | cons c text ih =>
    obtain ⟨first, pieces, hpieces⟩ : ∃ first pieces,
        text.splitOnP (fun c => !keep c) = first :: pieces :=
      List.exists_cons_of_ne_nil (List.splitOnP_ne_nil _ _)
    obtain ⟨hopen, hword⟩ := ih
    have hword := hword first pieces hpieces
    by_cases hkeep : keep c = true
    · have hne : c ≠ sep := by
        rintro rfl
        rw [hsep] at hkeep
        cases hkeep
      have hsplit : (c :: text).splitOnP (fun c => !keep c) = (c :: first) :: pieces := by
        simp [List.splitOnP_cons_eq_if_modifyHead, hkeep, hpieces]
      have hcollapse : ∀ going, (collapse keep sep going (c :: text)).rdropWhile (· = sep) =
          (c :: first) ++ if pieces.filter (fun w => !w.isEmpty) = [] then []
            else sep :: joined sep (pieces.filter (fun w => !w.isEmpty)) := by
        intro going
        simp [collapse, hkeep, rdropWhile_cons, hne, hword]
      constructor
      · rw [hcollapse, words, hsplit]
        by_cases hnone : pieces.filter (fun w => !w.isEmpty) = []
        · simp [hnone]
        · simp [hnone, List.intercalate_cons_of_ne_nil hnone]
      · intro first' pieces' h
        rw [hsplit] at h
        cases h
        exact hcollapse false
    · have hsplit : (c :: text).splitOnP (fun c => !keep c) = [] :: first :: pieces := by
        simp [List.splitOnP_cons_eq_if_modifyHead, hkeep, hpieces]
      have hwords : words keep (c :: text) = words keep text := by
        simp [words, hsplit, hpieces]
      constructor
      · rw [hwords, ← hopen]
        simp [collapse, hkeep]
      · intro first' pieces' h
        rw [hsplit] at h
        cases h
        have hnil : joined sep (words keep text) = [] ↔ words keep text = [] :=
          joined_eq_nil (fun w hw => ne_nil_of_mem_filter hw)
        have hsame : (first :: pieces).filter (fun w => !w.isEmpty) = words keep text := by
          rw [words, hpieces]
        simp only [collapse, hkeep, hsame]
        simp [rdropWhile_cons, hopen, hnil]

theorem strip_collapse (hsep : keep sep = false) (text : List α) :
    strip sep (collapse keep sep false text) = joined sep (words keep text) := by
  unfold strip
  rw [dropWhile_collapse hsep, (rdropWhile_collapse hsep text).1]

end Strip

/-! ## What a joined text holds -/

theorem mem_joined {ws : List (List α)} {c : α} (h : c ∈ joined sep ws) :
    (∃ w ∈ ws, c ∈ w) ∨ c = sep := by
  induction ws with
  | nil => cases h
  | cons w ws ih =>
    cases ws with
    | nil => exact .inl ⟨w, List.mem_cons_self, by simpa using h⟩
    | cons v ws =>
      rw [joined, List.intercalate_cons_cons] at h
      simp only [List.mem_append, List.mem_singleton, or_assoc] at h
      rcases h with hw | hsep | hrest
      · exact .inl ⟨w, List.mem_cons_self, hw⟩
      · exact .inr hsep
      · rcases ih hrest with ⟨u, hu, hc⟩ | hsep
        · exact .inl ⟨u, List.mem_cons_of_mem w hu, hc⟩
        · exact .inr hsep

theorem joined_infix {ws row : List (List α)} (hrow : row ≠ []) (h : row <:+: ws) :
    joined sep row <:+: joined sep ws := by
  obtain ⟨before, later, rfl⟩ := h
  have hstart : joined sep row <+: joined sep (row ++ later) := by
    cases later with
    | nil => simp
    | cons w later =>
      rw [joined_append hrow (List.cons_ne_nil w later)]
      exact List.prefix_append _ _
  rw [List.append_assoc]
  cases before with
  | nil => exact hstart.isInfix
  | cons w before =>
    rw [joined_append (List.cons_ne_nil w before) (by simp [hrow])]
    exact hstart.isInfix.trans ((List.suffix_cons sep _).trans (List.suffix_append _ _)).isInfix

/-- A word is one of the words exactly if the joined text is the word, or starts or ends with it or
    holds it, each time up to a separator. -/
theorem mem_iff_joined [DecidableEq α] {ws : List (List α)} (hws : ∀ v ∈ ws, sep ∉ v) {w : List α}
    (hw : w ≠ []) (hsep : sep ∉ w) :
    w ∈ ws ↔ joined sep ws = w ∨ w ++ [sep] <+: joined sep ws ∨ sep :: w <:+ joined sep ws ∨
      sep :: w ++ [sep] <:+: joined sep ws := by
  constructor
  · intro h
    obtain ⟨before, later, rfl⟩ := List.append_of_mem h
    cases before with
    | nil =>
      cases later with
      | nil => exact .inl (by simp)
      | cons v later =>
        right
        left
        have hjoin := @joined_append _ sep _ _ (List.cons_ne_nil w []) (List.cons_ne_nil v later)
        rw [List.singleton_append] at hjoin
        rw [List.nil_append, hjoin]
        exact ⟨joined sep (v :: later), by simp⟩
    | cons v before =>
      rw [joined_append (List.cons_ne_nil v before) (List.cons_ne_nil w later)]
      cases later with
      | nil =>
        right
        right
        left
        exact ⟨joined sep (v :: before), by simp⟩
      | cons u later =>
        right
        right
        right
        have hjoin := @joined_append _ sep _ _ (List.cons_ne_nil w []) (List.cons_ne_nil u later)
        rw [List.singleton_append] at hjoin
        rw [hjoin]
        exact ⟨joined sep (v :: before), joined sep (u :: later), by simp⟩
  · intro h
    have hne : ws ≠ [] := by
      rintro rfl
      simp [hw] at h
    rw [← List.splitOn_intercalate sep hws hne]
    change w ∈ (joined sep ws).splitOn sep
    generalize joined sep ws = text at h ⊢
    have hown : w.splitOn sep = [w] := List.splitOn_eq_singleton hsep
    rcases h with rfl | ⟨rest, rfl⟩ | ⟨start, rfl⟩ | ⟨start, rest, rfl⟩
    · simp [hown]
    · simp [List.append_assoc, List.splitOn_append_cons_self, hown]
    · simp [List.splitOn_append_cons_self, hown]
    · simp [List.append_assoc, List.splitOn_append_cons_self, hown]

end Words
