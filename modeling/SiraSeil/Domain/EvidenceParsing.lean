-- SUMMARY: The parsing of evidence into spans and the check of claims against them: the spans tile the text, so that no character is lost, shifted or counted twice.
import SiraSeil.Domain.Hashing
import SiraSeil.Library.Backtracking
import SiraSeil.Library.Raising
import Mathlib.Data.List.DropRight
import Mathlib.Data.List.Infix

/-!
# Evidence parsing

`domain/evidence_pipeline.py`: a regular expression finds the paragraphs of a text, a window cuts each
at its last space, and the pieces become spans with their offsets. The vector of a span, of binary
floats, is left out: nothing here reads it.
-/

namespace Domain

open Backtracking Tiling

/-- What the pipeline takes from Python and from `rfc8785` -/
structure EvidenceHost where
  /-- `str.casefold` of one character; that of a text is the same character by character. -/
  fold : Char → List Char
  /-- The digest of `rfc8785.dumps`, which raises on some values -/
  payloadDigest : Value → Option String
  fold_space : ∀ c, isSpace c = true → fold c = [c]

inductive EvidenceError
  | evidenceValidation (message : String)
  /-- A `ValidationError` of a model -/
  | validation
  /-- The value of a claim has no canonical text. -/
  | canonicalization
  /-- The loop does not end within the steps that it is given, or does not find a chunk again. -/
  | diverges
  deriving DecidableEq

/-- `_ALLOWED_CONTENT_TYPES` -/
def allowedContentTypes : List String :=
  ["text/plain", "text/markdown", "application/json", "text/csv"]

/-- `_INSTRUCTION_MARKERS` -/
def instructionMarkers : List String :=
  ["ignore previous", "system prompt", "call this tool", "reveal secret", "change your role"]

structure StableSpan where
  id : String
  sourceVersionId : String
  sequence : Nat
  start : Nat
  stop : Nat
  text : List Char
  contentHash : String
  untrustedInstructionMarkers : List String

structure ParsedEvidence where
  sourceVersionId : String
  objectChecksum : String
  contentType : String
  text : List Char
  textHash : String
  spans : List StableSpan

structure ClaimProposal where
  field : String
  operator : String
  value : Value
  spanId : String
  supportingText : List Char

structure ValidatedClaim where
  field : String
  operator : String
  value : Value
  sourceVersionId : String
  spanId : String
  supportingText : List Char
  provenanceHash : String

/-- `"sha256:" + sha256(text.encode()).hexdigest()` -/
def textHash (text : List Char) : String :=
  "sha256:" ++ Sha256.hexdigest (Runtime.utf8 text)

/-! ## Paragraphs -/

/-- `\s*\Z` -/
def blankEnd : Matcher Char := seq (many isSpace) atEnd

/-- `\n\s*\n` -/
def blankLine : Matcher Char :=
  seq (one (· == '\n')) (seq (many isSpace) (one (· == '\n')))

/-- `\S(?:.*?\S)?(?=\n\s*\n|\s*\Z)`, where a point is any character -/
def paragraphMatch : Matcher Char :=
  seq (one (fun c => !isSpace c))
    (seq (optional (seq (manyLazy (fun _ => true)) (one (fun c => !isSpace c))))
      (ahead (orElse blankLine blankEnd)))

/-- The paragraphs of a text with their positions -/
def paragraphs (text : List Char) : List (Nat × List Char) :=
  findIter paragraphMatch text.length 0 text

/-! ## Windows -/

/-- `text.strip()` -/
def stripText (text : List Char) : List Char :=
  (text.dropWhile isSpace).rdropWhile isSpace

/-- The last place of a letter -/
def lastIndex (c : Char) : List Char → Option Nat
  | [] => none
  | d :: rest =>
    match lastIndex c rest with
    | some i => some (i + 1)
    | none => if d = c then some 0 else none

/-- `text.rfind(c, lo, hi)` -/
def rfind (c : Char) (text : List Char) (lo hi : Nat) : Option Nat :=
  (lastIndex c ((text.drop lo).take (hi - lo))).map (lo + ·)

/-- The first place of a part in a text that starts at `lo` -/
def findFrom (part : List Char) (hi : Nat) : Nat → List Char → Option Nat
  | lo, [] => if lo + part.length ≤ hi ∧ part = [] then some lo else none
  | lo, c :: rest =>
    if lo + part.length ≤ hi ∧ part.isPrefixOf (c :: rest) = true then some lo
    else findFrom part hi (lo + 1) rest

/-- `text.find(part, lo, hi)` -/
def find (part text : List Char) (lo hi : Nat) : Option Nat :=
  findFrom part hi lo (text.drop lo)

section Windows

variable (maxSpanChars : Nat) (paragraph : List Char)

/-- The end of the window from an offset: behind so many characters, or at the last space before that -/
def windowEnd (offset : Nat) : Nat :=
  let stop := min paragraph.length (offset + maxSpanChars)
  if stop < paragraph.length then
    match rfind ' ' paragraph offset stop with
    | some boundary => if offset < boundary then boundary else stop
    | none => stop
  else stop

/-- The text of a window without the blanks at its ends -/
def windowChunk (offset : Nat) : List Char :=
  stripText ((paragraph.drop offset).take (windowEnd maxSpanChars paragraph offset - offset))

/-- The loop over a paragraph: the chunks with their places in it, or none if the steps run out or a chunk
    is not found again -/
def chunkLoop : Nat → Nat → Option (List (Nat × List Char))
  | 0, offset => if offset < paragraph.length then none else some []
  | steps + 1, offset =>
    if offset < paragraph.length then do
      let stop := windowEnd maxSpanChars paragraph offset
      let chunk := windowChunk maxSpanChars paragraph offset
      let later ← chunkLoop steps (max stop (offset + 1))
      if chunk = [] then return later
      else return (← find chunk paragraph offset (stop + 1), chunk) :: later
    else some []

end Windows

/-! ## Paragraphs tile a text -/

variable {text : List Char} {c : Char} {hi lo : Nat}

theorem takes_paragraphMatch {rest : List Char} (h : rest ∈ paragraphMatch text) :
    ∃ found, found ≠ [] ∧ text = found ++ rest := by
  simp only [paragraphMatch, mem_seq, mem_one, mem_optional, mem_manyLazy, mem_ahead] at h
  obtain ⟨_, ⟨c, rfl, -⟩, _, hmiddle, rfl, -⟩ := h
  rcases hmiddle with ⟨_, ⟨seen, rfl, -⟩, d, rfl, -⟩ | rfl
  · exact ⟨c :: (seen ++ [d]), by simp, by simp⟩
  · exact ⟨[c], by simp, by simp⟩

theorem exists_mem_blankEnd (h : ∀ c ∈ text, isSpace c = true) : ∃ rest, rest ∈ blankEnd text := by
  refine ⟨[], ?_⟩
  rw [blankEnd, mem_seq]
  exact ⟨[], mem_many.mpr ⟨text, by simp, h⟩, by simp⟩

theorem eq_append_blank (text : List Char) :
    ∃ before after, text = before ++ after ∧ (∀ c ∈ after, isSpace c = true) ∧
      (before = [] ∨ ∃ init c, before = init ++ [c] ∧ isSpace c = false) := by
  refine ⟨text.rdropWhile isSpace, text.rtakeWhile isSpace, ?_, ?_, ?_⟩
  · exact List.rdropWhile_append_rtakeWhile.symm
  · exact fun _ => List.mem_rtakeWhile_imp
  · by_cases hnil : text.rdropWhile isSpace = []
    · exact .inl hnil
    · refine .inr ⟨_, _, (List.dropLast_append_getLast hnil).symm, ?_⟩
      exact Bool.not_eq_true _ ▸ List.rdropWhile_last_not isSpace text hnil

/-- There is a match at every character that is no blank: the text up to its last one will do. -/
theorem matches_paragraphMatch (text : List Char) (hc : isSpace c = false) :
    ∃ rest, rest ∈ paragraphMatch (c :: text) := by
  obtain ⟨before, after, rfl, hafter, hbefore⟩ := eq_append_blank text
  refine ⟨after, ?_⟩
  simp only [paragraphMatch, mem_seq, mem_one, mem_optional, mem_manyLazy, mem_ahead, mem_orElse]
  refine ⟨before ++ after, ⟨c, rfl, by simp [hc]⟩, after, ?_, rfl, ?_⟩
  · rcases hbefore with rfl | ⟨init, d, rfl, hd⟩
    · exact .inr rfl
    · exact .inl ⟨d :: after, ⟨init, by simp, by simp⟩, d, rfl, by simp [hd]⟩
  · obtain ⟨rest, hrest⟩ := exists_mem_blankEnd hafter
    exact ⟨rest, .inr hrest⟩

theorem tiles_paragraphs (text : List Char) : Tiles isSpace 0 text (paragraphs text) :=
  tiles_findIter (fun _ _ h => takes_paragraphMatch h) (fun _ text hc => matches_paragraphMatch text hc)
    le_rfl

/-! ## A window -/

/-- The text does not start or end with a blank. -/
def Stripped (text : List Char) : Prop :=
  (∀ c ∈ text.head?, isSpace c = false) ∧ ∀ c ∈ text.getLast?, isSpace c = false

theorem stripped_stripText (text : List Char) : Stripped (stripText text) := by
  constructor
  · intro c hc
    obtain ⟨rest, hrest⟩ := List.head?_eq_some_iff.mp hc
    obtain ⟨after, hafter⟩ := List.rdropWhile_prefix isSpace (text.dropWhile isSpace)
    have hhead : (text.dropWhile isSpace).head? = some c := by
      rw [stripText] at hrest
      rw [← hafter, hrest]
      rfl
    have hnot := List.head?_dropWhile_not isSpace text
    rw [hhead] at hnot
    exact hnot
  · intro c hc
    have hne := List.ne_nil_of_mem (List.mem_of_getLast? hc)
    rw [Option.mem_def, List.getLast?_eq_some_getLast hne, Option.some_inj] at hc
    rw [← hc]
    exact Bool.not_eq_true _ ▸ List.rdropWhile_last_not isSpace _ hne

theorem eq_append_stripText (text : List Char) :
    ∃ after, (∀ c ∈ after, isSpace c = true) ∧
      text = text.takeWhile isSpace ++ (stripText text ++ after) := by
  refine ⟨(text.dropWhile isSpace).rtakeWhile isSpace, fun _ => List.mem_rtakeWhile_imp, ?_⟩
  rw [stripText, List.rdropWhile_append_rtakeWhile, List.takeWhile_append_dropWhile]

theorem findFrom_append {part after : List Char} (hne : part ≠ [])
    (hhead : ∀ c ∈ part.head?, isSpace c = false) {before : List Char}
    (hbefore : ∀ c ∈ before, isSpace c = true) (hhi : lo + before.length + part.length ≤ hi) :
    findFrom part hi lo (before ++ (part ++ after)) = some (lo + before.length) := by
  obtain ⟨d, part, rfl⟩ := List.exists_cons_of_ne_nil hne
  induction before generalizing lo with
  | nil =>
    have hprefix : (d :: part).isPrefixOf (d :: part ++ after) = true := by simp
    exact if_pos ⟨hhi, hprefix⟩
  | cons c before ih =>
    obtain ⟨hc, hbefore⟩ := List.forall_mem_cons.mp hbefore
    have hdiffers : c ≠ d := by
      rintro rfl
      rw [hhead c rfl] at hc
      cases hc
    have hmiss : ¬(lo + (d :: part).length ≤ hi ∧
        (d :: part).isPrefixOf (c :: (before ++ (d :: part ++ after))) = true) := by
      simp [Ne.symm hdiffers]
    rw [List.cons_append, findFrom, if_neg hmiss, ih hbefore (by rw [List.length_cons] at hhi; omega),
      List.length_cons]
    congr 1
    omega

theorem lastIndex_eq_none (h : lastIndex c text = none) : ∀ j : Nat, text[j]? ≠ some c := by
  induction text with
  | nil => simp
  | cons d rest ih =>
    rw [lastIndex] at h
    split at h
    next => cases h
    next hnone =>
      split at h
      next => cases h
      next hne =>
        intro j
        cases j with
        | zero => simpa using hne
        | succ j => simpa using ih hnone j

theorem lastIndex_eq_some {i : Nat} (h : lastIndex c text = some i) :
    text[i]? = some c ∧ ∀ j, i < j → text[j]? ≠ some c := by
  induction text generalizing i with
  | nil => cases h
  | cons d rest ih =>
    rw [lastIndex] at h
    split at h
    next k hk =>
      cases h
      obtain ⟨hi, hlater⟩ := ih hk
      refine ⟨by simpa using hi, fun j hj => ?_⟩
      cases j with
      | zero => omega
      | succ j => simpa using hlater j (by omega)
    next hnone =>
      split at h
      next heq =>
        cases h
        refine ⟨by simp [heq], fun j hj => ?_⟩
        cases j with
        | zero => omega
        | succ j => simpa using lastIndex_eq_none hnone j
      next => cases h

theorem getElem?_take_drop {j : Nat} (h : lo + j < hi) :
    ((text.drop lo).take (hi - lo))[j]? = text[lo + j]? := by
  rw [List.getElem?_take_of_lt (by omega), List.getElem?_drop]

theorem rfind_eq_none (h : rfind c text lo hi = none) :
    ∀ j, lo ≤ j → j < hi → text[j]? ≠ some c := by
  intro j hlo hhi
  have hnone := lastIndex_eq_none (Option.map_eq_none_iff.mp h) (j - lo)
  rwa [getElem?_take_drop (by omega), Nat.add_sub_cancel' hlo] at hnone

theorem rfind_eq_some {i : Nat} (h : rfind c text lo hi = some i) :
    lo ≤ i ∧ i < hi ∧ text[i]? = some c ∧ ∀ j, i < j → j < hi → text[j]? ≠ some c := by
  obtain ⟨k, hk, rfl⟩ := Option.map_eq_some_iff.mp h
  obtain ⟨hat, hlater⟩ := lastIndex_eq_some hk
  have hlt : k < hi - lo := by
    have hlength := (List.getElem?_eq_some_iff.mp hat).1
    have hle := List.length_take_le (hi - lo) (text.drop lo)
    omega
  rw [getElem?_take_drop (by omega)] at hat
  refine ⟨by omega, by omega, hat, fun j hj hhi => ?_⟩
  have hnone := hlater (j - lo) (by omega)
  rwa [getElem?_take_drop (by omega), Nat.add_sub_cancel' (by omega)] at hnone

section Windows

variable {maxSpanChars : Nat} {paragraph : List Char} {offset : Nat}

theorem windowEnd_le : windowEnd maxSpanChars paragraph offset ≤
    min paragraph.length (offset + maxSpanChars) := by
  unfold windowEnd
  dsimp only
  split
  next =>
    split
    next boundary hboundary =>
      have hlt := (rfind_eq_some hboundary).2.1
      split
      · exact Nat.le_of_lt hlt
      · exact Nat.le_refl _
    next => exact Nat.le_refl _
  next => exact Nat.le_refl _

theorem lt_windowEnd (hmax : 0 < maxSpanChars) (h : offset < paragraph.length) :
    offset < windowEnd maxSpanChars paragraph offset := by
  have hstop : offset < min paragraph.length (offset + maxSpanChars) := by omega
  unfold windowEnd
  dsimp only
  split
  next =>
    split
    next boundary hboundary =>
      split
      next hlt => exact hlt
      next => exact hstop
    next => exact hstop
  next => exact hstop

end Windows

/-! ## The loop over a paragraph -/

section Loop

variable (maxSpanChars : Nat) (paragraph : List Char) (offset : Nat)

/-- The characters of a window -/
def windowText : List Char :=
  (paragraph.drop offset).take (windowEnd maxSpanChars paragraph offset - offset)

/-- The chunk of a window at its place, if it has one -/
def placedChunk : List (Nat × List Char) :=
  if windowChunk maxSpanChars paragraph offset = [] then []
  else [(offset + ((windowText maxSpanChars paragraph offset).takeWhile isSpace).length,
    windowChunk maxSpanChars paragraph offset)]

variable {maxSpanChars paragraph offset}

theorem windowText_eq : ∃ after, (∀ c ∈ after, isSpace c = true) ∧
    windowText maxSpanChars paragraph offset =
      (windowText maxSpanChars paragraph offset).takeWhile isSpace ++
        (windowChunk maxSpanChars paragraph offset ++ after) :=
  eq_append_stripText _

theorem length_windowText (h : offset ≤ windowEnd maxSpanChars paragraph offset) :
    offset + (windowText maxSpanChars paragraph offset).length =
      windowEnd maxSpanChars paragraph offset := by
  have hle := @windowEnd_le maxSpanChars paragraph offset
  rw [windowText, List.length_take, List.length_drop]
  omega

theorem drop_eq_windowText (h : offset ≤ windowEnd maxSpanChars paragraph offset) :
    paragraph.drop offset = windowText maxSpanChars paragraph offset ++
      paragraph.drop (windowEnd maxSpanChars paragraph offset) := by
  have hsplit := List.take_append_drop (windowEnd maxSpanChars paragraph offset - offset)
    (paragraph.drop offset)
  rw [List.drop_drop, Nat.add_sub_cancel' h] at hsplit
  exact hsplit.symm

theorem find_windowChunk (hne : windowChunk maxSpanChars paragraph offset ≠ [])
    (h : offset ≤ windowEnd maxSpanChars paragraph offset) :
    find (windowChunk maxSpanChars paragraph offset) paragraph offset
        (windowEnd maxSpanChars paragraph offset + 1) =
      some (offset + ((windowText maxSpanChars paragraph offset).takeWhile isSpace).length) := by
  obtain ⟨after, -, htext⟩ := @windowText_eq maxSpanChars paragraph offset
  have hdrop : paragraph.drop offset = (windowText maxSpanChars paragraph offset).takeWhile isSpace ++
      (windowChunk maxSpanChars paragraph offset ++
        (after ++ paragraph.drop (windowEnd maxSpanChars paragraph offset))) := by
    rw [← List.append_assoc _ after, ← List.append_assoc, ← htext]
    exact drop_eq_windowText h
  rw [find, hdrop]
  apply findFrom_append hne (stripped_stripText _).1 (fun _ => List.mem_takeWhile_imp)
  have htotal := length_windowText h
  have hlength := congrArg List.length htext
  simp only [List.length_append] at hlength
  omega

theorem chunkLoop_succ (steps : Nat) (h : offset < paragraph.length) :
    chunkLoop maxSpanChars paragraph (steps + 1) offset =
      (chunkLoop maxSpanChars paragraph steps
          (max (windowEnd maxSpanChars paragraph offset) (offset + 1))).map
        (placedChunk maxSpanChars paragraph offset ++ ·) := by
  rw [chunkLoop, if_pos h]
  cases hlater : chunkLoop maxSpanChars paragraph steps
      (max (windowEnd maxSpanChars paragraph offset) (offset + 1)) with
  | none => simp [hlater]
  | some later =>
    by_cases hne : windowChunk maxSpanChars paragraph offset = []
    · simp [placedChunk, hne, hlater]
    · have hwindow : offset ≤ windowEnd maxSpanChars paragraph offset := by
        by_contra hlt
        apply hne
        rw [windowChunk, Nat.sub_eq_zero_of_le (Nat.le_of_not_le hlt)]
        rfl
      simp [placedChunk, hne, hlater, find_windowChunk hne hwindow]

theorem chunkLoop_of_le {steps : Nat} (h : paragraph.length ≤ offset) :
    chunkLoop maxSpanChars paragraph steps offset = some [] := by
  cases steps <;> rw [chunkLoop, if_neg (Nat.not_lt.mpr h)]

theorem exists_chunkLoop {steps : Nat} (hsteps : paragraph.length ≤ offset + steps) :
    ∃ chunks, chunkLoop maxSpanChars paragraph steps offset = some chunks := by
  induction steps generalizing offset with
  | zero => exact ⟨[], chunkLoop_of_le hsteps⟩
  | succ steps ih =>
    by_cases h : offset < paragraph.length
    · have hnext := Nat.le_max_right (windowEnd maxSpanChars paragraph offset) (offset + 1)
      obtain ⟨later, hlater⟩ := @ih (max (windowEnd maxSpanChars paragraph offset) (offset + 1))
        (by omega)
      exact ⟨_, by rw [chunkLoop_succ steps h, hlater, Option.map_some]⟩
    · exact ⟨[], chunkLoop_of_le (Nat.not_lt.mp h)⟩

theorem tiles_placedChunk :
    Tiles isSpace offset (windowText maxSpanChars paragraph offset)
      (placedChunk maxSpanChars paragraph offset) := by
  obtain ⟨after, hafter, htext⟩ := @windowText_eq maxSpanChars paragraph offset
  by_cases hne : windowChunk maxSpanChars paragraph offset = []
  · rw [placedChunk, if_pos hne]
    rw [hne, List.nil_append] at htext
    apply Tiles.nil
    intro c hc
    rw [htext] at hc
    exact (List.mem_append.mp hc).elim List.mem_takeWhile_imp (hafter c)
  · have htiles : Tiles isSpace offset ((windowText maxSpanChars paragraph offset).takeWhile isSpace ++
        (windowChunk maxSpanChars paragraph offset ++ after)) _ :=
      .cons (fun _ => List.mem_takeWhile_imp) hne (.nil hafter)
    rw [← htext] at htiles
    rw [placedChunk, if_neg hne]
    exact htiles

theorem tiles_chunkLoop (hmax : 0 < maxSpanChars) {steps : Nat} {chunks : List (Nat × List Char)}
    (h : chunkLoop maxSpanChars paragraph steps offset = some chunks) :
    Tiles isSpace offset (paragraph.drop offset) chunks := by
  induction steps generalizing offset chunks with
  | zero =>
    rw [chunkLoop] at h
    split at h
    next => cases h
    next hle =>
      cases h
      rw [List.drop_eq_nil_of_le (Nat.not_lt.mp hle)]
      exact .nil (by simp)
  | succ steps ih =>
    by_cases hoffset : offset < paragraph.length
    · have hlt := lt_windowEnd hmax hoffset
      rw [chunkLoop_succ steps hoffset, Nat.max_eq_left hlt] at h
      obtain ⟨later, hlater, rfl⟩ := Option.map_eq_some_iff.mp h
      rw [drop_eq_windowText (Nat.le_of_lt hlt)]
      apply tiles_placedChunk.append
      rw [length_windowText (Nat.le_of_lt hlt)]
      exact ih hlater
    · rw [chunkLoop_of_le (Nat.not_lt.mp hoffset)] at h
      cases h
      rw [List.drop_eq_nil_of_le (Nat.not_lt.mp hoffset)]
      exact .nil (by simp)

/-- What a window gives is not empty, no longer than the limit and has no blanks at its ends. -/
theorem chunk_of_mem_placedChunk {p : Nat × List Char} (h : p ∈ placedChunk maxSpanChars paragraph offset) :
    p.2 ≠ [] ∧ p.2.length ≤ maxSpanChars ∧ Stripped p.2 := by
  rw [placedChunk] at h
  split at h
  next => cases h
  next hne =>
    cases List.mem_singleton.mp h
    refine ⟨hne, ?_, stripped_stripText _⟩
    obtain ⟨after, -, htext⟩ := @windowText_eq maxSpanChars paragraph offset
    have hle := @windowEnd_le maxSpanChars paragraph offset
    have htake : (windowText maxSpanChars paragraph offset).length ≤
        windowEnd maxSpanChars paragraph offset - offset := List.length_take_le _ _
    have hlength := congrArg List.length htext
    simp only [List.length_append] at hlength
    dsimp only
    omega

theorem chunk_of_mem_chunkLoop {steps : Nat} {chunks : List (Nat × List Char)}
    (h : chunkLoop maxSpanChars paragraph steps offset = some chunks) :
    ∀ p ∈ chunks, p.2 ≠ [] ∧ p.2.length ≤ maxSpanChars ∧ Stripped p.2 := by
  induction steps generalizing offset chunks with
  | zero =>
    rw [chunkLoop] at h
    split at h
    · cases h
    · cases h
      simp
  | succ steps ih =>
    by_cases hoffset : offset < paragraph.length
    · rw [chunkLoop_succ steps hoffset] at h
      obtain ⟨later, hlater, rfl⟩ := Option.map_eq_some_iff.mp h
      intro p hp
      rcases List.mem_append.mp hp with hfirst | hrest
      · exact chunk_of_mem_placedChunk hfirst
      · exact ih hlater p hrest
    · rw [chunkLoop_of_le (Nat.not_lt.mp hoffset)] at h
      cases h
      simp

end Loop

/-- The chunks of all paragraphs with their places in the text -/
def placedChunks (maxSpanChars : Nat) (text : List Char) : Option (List (Nat × List Char)) := do
  let parts ← (paragraphs text).mapM (fun p => do
    let chunks ← chunkLoop maxSpanChars p.2 p.2.length 0
    return chunks.map (fun c => (p.1 + c.1, c.2)))
  return parts.flatten

/-- The chunks of a paragraph with their places in the text -/
def paragraphChunks (maxSpanChars : Nat) (p : Nat × List Char) : List (Nat × List Char) :=
  ((chunkLoop maxSpanChars p.2 p.2.length 0).getD []).map (fun c => (p.1 + c.1, c.2))

theorem chunkLoop_eq (maxSpanChars : Nat) (paragraph : List Char) :
    chunkLoop maxSpanChars paragraph paragraph.length 0 =
      some ((chunkLoop maxSpanChars paragraph paragraph.length 0).getD []) := by
  obtain ⟨chunks, hchunks⟩ := @exists_chunkLoop maxSpanChars paragraph 0 paragraph.length (by omega)
  rw [hchunks, Option.getD_some]

theorem placedChunks_eq (maxSpanChars : Nat) (text : List Char) :
    placedChunks maxSpanChars text = some ((paragraphs text).flatMap (paragraphChunks maxSpanChars)) := by
  have hparts : ∀ p : Nat × List Char, (do
      let chunks ← chunkLoop maxSpanChars p.2 p.2.length 0
      return chunks.map (fun c => (p.1 + c.1, c.2))) = some (paragraphChunks maxSpanChars p) := by
    intro p
    rw [chunkLoop_eq]
    rfl
  have hmapM : (paragraphs text).mapM (fun p => some (paragraphChunks maxSpanChars p)) =
      some ((paragraphs text).map (paragraphChunks maxSpanChars)) := List.mapM_pure
  rw [placedChunks, funext hparts, hmapM]
  rfl

theorem tiles_placedChunks {maxSpanChars : Nat} (hmax : 0 < maxSpanChars) (text : List Char) :
    Tiles isSpace 0 text ((paragraphs text).flatMap (paragraphChunks maxSpanChars)) := by
  apply (tiles_paragraphs text).flatMap
  intro p _
  exact (tiles_chunkLoop hmax (chunkLoop_eq maxSpanChars p.2)).shift p.1

theorem chunk_of_mem_placedChunks {maxSpanChars : Nat} {text : List Char} :
    ∀ c ∈ (paragraphs text).flatMap (paragraphChunks maxSpanChars),
      c.2 ≠ [] ∧ c.2.length ≤ maxSpanChars ∧ Stripped c.2 := by
  intro c hc
  obtain ⟨p, -, hc⟩ := List.mem_flatMap.mp hc
  obtain ⟨chunk, hchunk, rfl⟩ := List.mem_map.mp hc
  exact chunk_of_mem_chunkLoop (chunkLoop_eq maxSpanChars p.2) chunk hchunk

/-! ## Spans -/

/-- `text.replace("\r\n", "\n")` -/
def replaceCrLf : List Char → List Char
  | '\r' :: '\n' :: rest => '\n' :: replaceCrLf rest
  | c :: rest => c :: replaceCrLf rest
  | [] => []

/-- `text.replace("\r", "\n")` -/
def replaceCr (text : List Char) : List Char :=
  text.map (fun c => if c = '\r' then '\n' else c)

section Parsing

variable (host : EvidenceHost)

/-- `text.casefold()` -/
def EvidenceHost.casefold (text : List Char) : List Char :=
  text.flatMap host.fold

/-- The markers in a chunk -/
def markersOf (chunk : List Char) : List String :=
  instructionMarkers.filter (fun marker => decide (marker.toList <:+: host.casefold chunk))

/-- `StableSpan(…)` of a chunk at its place -/
def spanOf (sourceVersionId : String) (sequence : Nat) (chunk : Nat × List Char) : StableSpan :=
  let stop := chunk.1 + chunk.2.length
  let digest := Sha256.hexdigest (Runtime.utf8 ((sourceVersionId ++ ":" ++ toString chunk.1 ++ ":" ++
    toString stop ++ ":").toList ++ chunk.2))
  { id := "span_" ++ String.ofList (digest.toList.take 24)
    sourceVersionId := sourceVersionId
    sequence := sequence
    start := chunk.1
    stop := stop
    text := chunk.2
    contentHash := textHash chunk.2
    untrustedInstructionMarkers := markersOf host chunk.2 }

/-- `parse_evidence` -/
def parseEvidence (sourceVersionId : String) (body : ByteArray) (contentType : String)
    (maxSpanChars : Nat := 800) : Except EvidenceError ParsedEvidence :=
  if contentType ∉ allowedContentTypes then
    .error (.evidenceValidation "evidence content type requires a configured parser")
  else if body.size = 0 then .error (.evidenceValidation "evidence object must not be empty")
  else if 25 * 1024 * 1024 < body.size then
    .error (.evidenceValidation "evidence object exceeds the ingestion limit")
  else
    match String.fromUTF8? body with
    | none => .error (.evidenceValidation "text evidence must be valid UTF-8")
    | some decoded =>
      let text := replaceCr (replaceCrLf decoded.toList)
      if '\x00' ∈ text then .error (.evidenceValidation "evidence contains a NUL byte")
      else
        match placedChunks maxSpanChars text with
        | none => .error .diverges
        | some chunks =>
          if chunks.any (fun chunk => decide (2000 < chunk.2.length)) then .error .validation
          else if chunks = [] then
            .error (.evidenceValidation "evidence contains no parseable text")
          else
            .ok { sourceVersionId := sourceVersionId
                  objectChecksum := "sha256:" ++ Sha256.hexdigest (body.data.toList.map UInt8.toNat)
                  contentType := contentType
                  text := text
                  textHash := textHash text
                  spans := (chunks.zipIdx 1).map (fun p => spanOf host sourceVersionId p.2 p.1) }

/-- The text of a claim's payload -/
def claimPayload (evidence : ParsedEvidence) (proposal : ClaimProposal) (span : StableSpan) : Value :=
  .obj [("field", .str proposal.field), ("operator", .str proposal.operator),
    ("value", proposal.value), ("source_version_id", .str evidence.sourceVersionId),
    ("span_id", .str span.id), ("supporting_text", .str (String.ofList proposal.supportingText)),
    ("span_hash", .str span.contentHash)]

/-- The check of one proposal; of two spans with one id the later one counts. -/
def validateClaim (evidence : ParsedEvidence) (proposal : ClaimProposal) :
    Except EvidenceError ValidatedClaim :=
  match evidence.spans.reverse.find? (fun span => span.id == proposal.spanId) with
  | none =>
    .error (.evidenceValidation "claim support does not resolve to its pinned span")
  | some span =>
    if ¬ proposal.supportingText <:+: span.text then
      .error (.evidenceValidation "claim support does not resolve to its pinned span")
    else
      match host.payloadDigest (claimPayload evidence proposal span) with
      | none => .error .canonicalization
      | some digest =>
        .ok { field := proposal.field
              operator := proposal.operator
              value := proposal.value
              sourceVersionId := evidence.sourceVersionId
              spanId := span.id
              supportingText := proposal.supportingText
              provenanceHash := "sha256:" ++ digest }

/-- `validate_claim_proposals` -/
def validateClaimProposals (evidence : ParsedEvidence) (proposals : List ClaimProposal) :
    Except EvidenceError (List ValidatedClaim) :=
  proposals.mapM (validateClaim host evidence)

/-! ## What an accepted text is -/

variable {host} {sourceVersionId : String} {body : ByteArray} {contentType : String} {maxSpanChars : Nat}

theorem parseEvidence_eq_ok {evidence : ParsedEvidence}
    (h : parseEvidence host sourceVersionId body contentType maxSpanChars = .ok evidence) :
    evidence.spans = (((paragraphs evidence.text).flatMap (paragraphChunks maxSpanChars)).zipIdx 1).map
        (fun p => spanOf host sourceVersionId p.2 p.1) ∧
      (paragraphs evidence.text).flatMap (paragraphChunks maxSpanChars) ≠ [] := by
  unfold parseEvidence at h
  simp only [placedChunks_eq] at h
  split at h
  · cases h
  split at h
  · cases h
  split at h
  · cases h
  split at h
  next => cases h
  next decoded _ =>
    split at h
    · cases h
    split at h
    · cases h
    split at h
    next => cases h
    next hne =>
      cases h
      exact ⟨rfl, hne⟩

theorem any_tooLong_eq_false (hmax : maxSpanChars ≤ 2000) (text : List Char) :
    ((paragraphs text).flatMap (paragraphChunks maxSpanChars)).any
      (fun chunk => decide (2000 < chunk.2.length)) = false := by
  apply List.any_eq_false.mpr
  intro chunk hchunk
  have hle := (chunk_of_mem_placedChunks chunk hchunk).2.1
  simp only [decide_eq_true_eq]
  omega

/-- The loop always ends, and no chunk is too long for a span: the errors are those of the pipeline. -/
theorem parseEvidence_error (hmax : maxSpanChars ≤ 2000) {error : EvidenceError}
    (h : parseEvidence host sourceVersionId body contentType maxSpanChars = .error error) :
    ∃ message, error = .evidenceValidation message := by
  unfold parseEvidence at h
  simp only [placedChunks_eq, any_tooLong_eq_false hmax] at h
  split at h
  · cases h
    exact ⟨_, rfl⟩
  split at h
  · cases h
    exact ⟨_, rfl⟩
  split at h
  · cases h
    exact ⟨_, rfl⟩
  split at h
  next =>
    cases h
    exact ⟨_, rfl⟩
  next =>
    split at h
    · cases h
      exact ⟨_, rfl⟩
    split at h
    next hlong => cases hlong
    next =>
      split at h
      · cases h
        exact ⟨_, rfl⟩
      · cases h

theorem exists_parseEvidence (hmax : maxSpanChars ≤ 2000) (htype : contentType ∈ allowedContentTypes)
    (hempty : body.size ≠ 0) (hsize : body.size ≤ 25 * 1024 * 1024) {decoded : String}
    (hdecoded : String.fromUTF8? body = some decoded)
    (hnul : '\x00' ∉ replaceCr (replaceCrLf decoded.toList))
    (hchunks : (paragraphs (replaceCr (replaceCrLf decoded.toList))).flatMap
      (paragraphChunks maxSpanChars) ≠ []) :
    ∃ evidence, parseEvidence host sourceVersionId body contentType maxSpanChars = .ok evidence ∧
      evidence.text = replaceCr (replaceCrLf decoded.toList) := by
  unfold parseEvidence
  simp only [placedChunks_eq, any_tooLong_eq_false hmax, hdecoded]
  rw [if_neg (not_not_intro htype), if_neg hempty, if_neg (Nat.not_lt.mpr hsize), if_neg hnul,
    if_neg Bool.false_ne_true, if_neg hchunks]
  exact ⟨_, rfl, rfl⟩

/-- The spans tile the text: they stand one behind the other, each is what the text has at its place, and no
    character but blanks is left out. -/
structure TilesText (maxSpanChars : Nat) (evidence : ParsedEvidence) : Prop where
  ordered : evidence.spans.Pairwise (fun first later => first.stop ≤ later.start)
  slices : ∀ span ∈ evidence.spans, span.start < span.stop ∧
    (evidence.text.drop span.start).take (span.stop - span.start) = span.text
  bounded : ∀ span ∈ evidence.spans, span.text.length ≤ maxSpanChars ∧ Stripped span.text
  covered : ∀ i c, evidence.text[i]? = some c → isSpace c = false →
    ∃! span, span ∈ evidence.spans ∧ span.start ≤ i ∧ i < span.stop
  numbered : evidence.spans.map (·.sequence) = List.range' 1 evidence.spans.length

theorem eq_of_ordered {spans : List StableSpan}
    (h : spans.Pairwise (fun first later => first.stop ≤ later.start)) (i : Nat) {first later : StableSpan}
    (hfirst : first ∈ spans) (hlater : later ∈ spans) (hi : first.start ≤ i ∧ i < first.stop)
    (hi' : later.start ≤ i ∧ i < later.stop) : first = later := by
  have hall := @List.Pairwise.forall_of_forall_of_flip _ spans
    (fun a b : StableSpan => a.start ≤ i ∧ i < a.stop → b.start ≤ i ∧ i < b.stop → a = b)
    (fun _ _ _ _ => rfl)
    (h.imp (fun hle ha hb => absurd (Nat.lt_of_lt_of_le ha.2 hle) (Nat.not_lt.mpr hb.1)))
    (h.imp (fun hle hb ha => absurd (Nat.lt_of_lt_of_le ha.2 hle) (Nat.not_lt.mpr hb.1)))
  exact hall hfirst hlater hi hi'

theorem tilesText_of_tiles {evidence : ParsedEvidence} {chunks : List (Nat × List Char)}
    (hspans : evidence.spans = (chunks.zipIdx 1).map (fun p => spanOf host sourceVersionId p.2 p.1))
    (htiles : Tiles isSpace 0 evidence.text chunks)
    (hbounded : ∀ c ∈ chunks, c.2 ≠ [] ∧ c.2.length ≤ maxSpanChars ∧ Stripped c.2) :
    TilesText maxSpanChars evidence := by
  have hmem : ∀ span ∈ evidence.spans, ∃ chunk ∈ chunks, span.start = chunk.1 ∧
      span.stop = chunk.1 + chunk.2.length ∧ span.text = chunk.2 := by
    intro span hspan
    rw [hspans] at hspan
    obtain ⟨p, hp, rfl⟩ := List.mem_map.mp hspan
    exact ⟨p.1, List.fst_mem_of_mem_zipIdx hp, rfl, rfl, rfl⟩
  have hordered : evidence.spans.Pairwise (fun first later => first.stop ≤ later.start) := by
    rw [hspans, List.pairwise_map]
    have hpairwise := htiles.pairwise
    rw [← List.zipIdx_map_fst 1 chunks, List.pairwise_map] at hpairwise
    exact hpairwise
  constructor
  · exact hordered
  · intro span hspan
    obtain ⟨chunk, hchunk, hstart, hstop, htext⟩ := hmem span hspan
    have hpositive := List.length_pos_iff.mpr (htiles.le_of_mem chunk hchunk).2
    rw [hstart, hstop, htext, Nat.add_sub_cancel_left]
    exact ⟨by omega, htiles.slice chunk hchunk⟩
  · intro span hspan
    obtain ⟨chunk, hchunk, -, -, htext⟩ := hmem span hspan
    rw [htext]
    exact (hbounded chunk hchunk).2
  · intro i c hi hc
    obtain ⟨chunk, hchunk, hfirst, hlast⟩ := htiles.exists_covers hi hc
    rw [Nat.zero_add] at hfirst hlast
    rw [← List.zipIdx_map_fst 1 chunks] at hchunk
    obtain ⟨p, hp, rfl⟩ := List.mem_map.mp hchunk
    have hspan : spanOf host sourceVersionId p.2 p.1 ∈ evidence.spans := hspans ▸ List.mem_map_of_mem hp
    refine ⟨spanOf host sourceVersionId p.2 p.1, ⟨hspan, hfirst, hlast⟩, ?_⟩
    rintro other ⟨hother, hcovers⟩
    exact eq_of_ordered hordered i hother hspan hcovers ⟨hfirst, hlast⟩
  · rw [hspans, List.map_map, List.length_map, List.length_zipIdx]
    exact List.zipIdx_map_snd 1 chunks

/-! ## Accepted claims -/

/-- The support of a claim is in a span of the id that the claim cites, and so in the text. -/
def Supported (evidence : ParsedEvidence) (claim : ValidatedClaim) : Prop :=
  ∃ span ∈ evidence.spans, span.id = claim.spanId ∧ claim.supportingText <:+: span.text ∧
    claim.supportingText <:+: evidence.text

theorem supported_of_validateClaim {evidence : ParsedEvidence} (htiles : TilesText maxSpanChars evidence)
    {proposal : ClaimProposal} {claim : ValidatedClaim}
    (h : validateClaim host evidence proposal = .ok claim) : Supported evidence claim := by
  unfold validateClaim at h
  split at h
  next => cases h
  next span hspan =>
    split at h
    next => cases h
    next hinfix =>
      split at h
      next => cases h
      next =>
        cases h
        have hmem := List.mem_reverse.mp (List.mem_of_find?_eq_some hspan)
        have hspanText := not_not.mp hinfix
        refine ⟨span, hmem, rfl, hspanText, ?_⟩
        have hslice := (htiles.slices span hmem).2
        have hpre : span.text <+: evidence.text.drop span.start := hslice ▸ List.take_prefix _ _
        exact hspanText.trans (hpre.isInfix.trans (List.drop_suffix _ _).isInfix)

/-- Whatever body `parse_evidence` gets, it ends, and the spans of an accepted one tile its text; the support
    of every accepted claim is in its span and in the text. -/
theorem parseEvidence_tiles (host : EvidenceHost) (sourceVersionId : String) (body : ByteArray)
    (contentType : String) {maxSpanChars : Nat} (hmin : 1 ≤ maxSpanChars) (hmax : maxSpanChars ≤ 2000) :
    (∀ error, parseEvidence host sourceVersionId body contentType maxSpanChars = .error error →
      ∃ message, error = .evidenceValidation message) ∧
    ∀ evidence, parseEvidence host sourceVersionId body contentType maxSpanChars = .ok evidence →
      TilesText maxSpanChars evidence ∧
      ∀ proposals claims, validateClaimProposals host evidence proposals = .ok claims →
        ∀ claim ∈ claims, Supported evidence claim := by
  refine ⟨fun _ => parseEvidence_error hmax, fun evidence h => ?_⟩
  obtain ⟨hspans, -⟩ := parseEvidence_eq_ok h
  have htiles : TilesText maxSpanChars evidence :=
    tilesText_of_tiles hspans (tiles_placedChunks hmin evidence.text) chunk_of_mem_placedChunks
  refine ⟨htiles, fun proposals claims hclaims claim hclaim => ?_⟩
  obtain ⟨proposal, -, hproposal⟩ := (Raising.mem_of_mapM_eq_ok hclaims).mp hclaim
  exact supported_of_validateClaim htiles hproposal

/-- A host whose letters are all small -/
def smallHost : EvidenceHost where
  fold c := [c]
  payloadDigest _ := none
  fold_space _ _ := rfl

theorem fromUTF8?_toUTF8 (s : String) : String.fromUTF8? s.toUTF8 = some s :=
  dif_pos s.isValidUTF8

theorem parseEvidence_tiles_words :
    ∃ evidence, parseEvidence smallHost "v1" "we keep\r\n\r\nlogs".toUTF8 "text/plain" 6 = .ok evidence ∧
      evidence.text = "we keep\n\nlogs".toList ∧ TilesText 6 evidence := by
  obtain ⟨evidence, hok, htext⟩ := @exists_parseEvidence smallHost "v1"
    "we keep\r\n\r\nlogs".toUTF8 "text/plain" 6 (by decide) (by decide) (by decide) (by decide) _
    (fromUTF8?_toUTF8 _) (by decide) (by decide)
  refine ⟨evidence, hok, ?_, ?_⟩
  · rw [htext]
    decide
  · exact ((parseEvidence_tiles smallHost "v1" _ "text/plain" (by decide) (by decide)).2 evidence hok).1

end Parsing

end Domain
