-- SUMMARY: Which occurrences of an instruction marker are flagged: the marker is looked for in each window, so one that a window cuts is missed unless a whole one stands by.
import SiraSeil.Domain.EvidenceParsing

/-!
# Instruction markers

A window ends at a space where it can, and the markers have spaces. So a cut can fall into a marker, and
neither of its two spans lists it then.
-/

namespace Domain

open Tiling

/-- The characters of a text from one place to another -/
def slice (text : List Char) (lo hi : Nat) : List Char :=
  (text.drop lo).take (hi - lo)

/-- Where a window ends that starts at a cut: at the end of the paragraph if it is near enough, else at the
    last space in reach, and behind as many characters as a span may have if there is none. -/
def NextCut (maxSpanChars : Nat) (paragraph : List Char) (start stop : Nat) : Prop :=
  (paragraph.length ≤ start + maxSpanChars ∧ stop = paragraph.length) ∨
  (start + maxSpanChars < paragraph.length ∧ start < stop ∧ stop < start + maxSpanChars ∧
    paragraph[stop]? = some ' ' ∧
    ∀ j, stop < j → j < start + maxSpanChars → paragraph[j]? ≠ some ' ') ∨
  (start + maxSpanChars < paragraph.length ∧ stop = start + maxSpanChars ∧
    ∀ j, start < j → j < start + maxSpanChars → paragraph[j]? ≠ some ' ')

/-- The places at which a paragraph is cut -/
inductive Cut (maxSpanChars : Nat) (paragraph : List Char) : Nat → Prop
  | start : Cut maxSpanChars paragraph 0
  | next {start stop : Nat} (h : Cut maxSpanChars paragraph start) (hstart : start < paragraph.length)
      (hstop : NextCut maxSpanChars paragraph start stop) : Cut maxSpanChars paragraph stop

/-- A marker occurs in a paragraph from one place to another: the folded part has it, and no smaller one. -/
structure Occurs (host : EvidenceHost) (marker : String) (paragraph : List Char) (start stop : Nat) : Prop where
  within : stop ≤ paragraph.length
  holds : marker.toList <:+: host.casefold (slice paragraph start stop)
  shortest : ∀ start' stop', start ≤ start' → stop' ≤ stop →
    marker.toList <:+: host.casefold (slice paragraph start' stop') → start' = start ∧ stop' = stop

/-- Some span that overlaps an occurrence of a marker lists the marker. -/
def Flagged (host : EvidenceHost) (evidence : ParsedEvidence) : Prop :=
  ∀ p ∈ paragraphs evidence.text, ∀ marker ∈ instructionMarkers, ∀ start stop,
    Occurs host marker p.2 start stop →
      ∃ span ∈ evidence.spans, span.start < p.1 + stop ∧ p.1 + start < span.stop ∧
        marker ∈ span.untrustedInstructionMarkers

/-- No cut falls into the second of two parts of a paragraph, nor between the two. -/
def Uncut (maxSpanChars : Nat) (paragraph : List Char) (start stop start' stop' : Nat) : Prop :=
  ∀ k, Cut maxSpanChars paragraph k →
    ¬(start' < k ∧ k < stop') ∧ ¬(stop' ≤ k ∧ k ≤ start) ∧ ¬(stop ≤ k ∧ k ≤ start')

/-- By every occurrence of a marker there is a whole one, often the same. -/
def WholeMarkers (host : EvidenceHost) (maxSpanChars : Nat) (text : List Char) : Prop :=
  ∀ p ∈ paragraphs text, ∀ marker ∈ instructionMarkers, ∀ start stop,
    Occurs host marker p.2 start stop →
      ∃ start' stop', Occurs host marker p.2 start' stop' ∧
        Uncut maxSpanChars p.2 start stop start' stop'

/-! ## Cuts -/

section Cuts

variable {maxSpanChars : Nat} {paragraph : List Char}

theorem nextCut_iff {start stop : Nat} :
    NextCut maxSpanChars paragraph start stop ↔ stop = windowEnd maxSpanChars paragraph start := by
  -- The three cases exclude each other, and two last spaces are one.
  have hunique : ∀ a b, NextCut maxSpanChars paragraph start a →
      NextCut maxSpanChars paragraph start b → a = b := by
    rintro a b (⟨hnear, rfl⟩ | ⟨hfar, hlo, hhi, hat, hlater⟩ | ⟨hfar, rfl, hnone⟩)
      (⟨hnear', rfl⟩ | ⟨hfar', hlo', hhi', hat', hlater'⟩ | ⟨hfar', rfl, hnone'⟩)
    any_goals omega
    · rcases Nat.lt_trichotomy a b with hlt | heq | hlt
      · exact absurd hat' (hlater b hlt hhi')
      · exact heq
      · exact absurd hat (hlater' a hlt hhi)
    · exact absurd hat (hnone' a hlo hhi)
    · exact absurd hat' (hnone b hlo' hhi')
  have hwindow : NextCut maxSpanChars paragraph start (windowEnd maxSpanChars paragraph start) := by
    unfold windowEnd
    dsimp only
    split
    next hlt =>
      have hstop : min paragraph.length (start + maxSpanChars) = start + maxSpanChars := by omega
      rw [hstop] at hlt ⊢
      split
      next boundary hboundary =>
        obtain ⟨hle, hreach, hat, hlater⟩ := rfind_eq_some hboundary
        split
        next hoffset => exact .inr (.inl ⟨hlt, hoffset, hreach, hat, hlater⟩)
        next hoffset => exact .inr (.inr ⟨hlt, rfl, fun j hj => hlater j (by omega)⟩)
      next hnone =>
        exact .inr (.inr ⟨hlt, rfl, fun j hj => rfind_eq_none hnone j (Nat.le_of_lt hj)⟩)
    next hle => exact .inl ⟨by omega, by omega⟩
  constructor
  · exact fun h => hunique _ _ h hwindow
  · rintro rfl
    exact hwindow

/-- The place where the window behind a cut ends; the end of the paragraph is the last cut. -/
def advance (maxSpanChars : Nat) (paragraph : List Char) (start : Nat) : Nat :=
  if start < paragraph.length then windowEnd maxSpanChars paragraph start else start

theorem cut_iff_iterate {k : Nat} :
    Cut maxSpanChars paragraph k ↔ ∃ n, (advance maxSpanChars paragraph)^[n] 0 = k := by
  constructor
  · intro h
    induction h with
    | start => exact ⟨0, rfl⟩
    | next _ hstart hstop ih =>
      obtain ⟨n, rfl⟩ := ih
      refine ⟨n + 1, ?_⟩
      rw [Function.iterate_succ_apply', advance, if_pos hstart]
      exact ((nextCut_iff).mp hstop).symm
  · rintro ⟨n, rfl⟩
    induction n with
    | zero => exact .start
    | succ n ih =>
      rw [Function.iterate_succ_apply', advance]
      split
      next hstart => exact ih.next hstart ((nextCut_iff).mpr rfl)
      next => exact ih

theorem monotone_advance (hmax : 0 < maxSpanChars) :
    Monotone (fun n => (advance maxSpanChars paragraph)^[n] 0) := by
  apply monotone_nat_of_le_succ
  intro n
  rw [Function.iterate_succ_apply', advance]
  split
  next hstart => exact Nat.le_of_lt (lt_windowEnd hmax hstart)
  next => exact Nat.le_refl _

theorem Cut.le_or_le (hmax : 0 < maxSpanChars) {k start : Nat} (h : Cut maxSpanChars paragraph k)
    (hcut : Cut maxSpanChars paragraph start) (hstart : start < paragraph.length) :
    k ≤ start ∨ windowEnd maxSpanChars paragraph start ≤ k := by
  obtain ⟨m, rfl⟩ := (cut_iff_iterate).mp h
  obtain ⟨n, rfl⟩ := (cut_iff_iterate).mp hcut
  by_cases hle : m ≤ n
  · exact .inl (monotone_advance hmax hle)
  · right
    have hnext := @monotone_advance _ paragraph hmax _ _ (Nat.lt_of_not_le hle)
    dsimp only at hnext
    rw [Nat.succ_eq_add_one, Function.iterate_succ_apply', advance, if_pos hstart] at hnext
    exact hnext

theorem Cut.at_windowEnd {start : Nat} (h : Cut maxSpanChars paragraph start)
    (hstart : start < paragraph.length) :
    Cut maxSpanChars paragraph (windowEnd maxSpanChars paragraph start) :=
  h.next hstart ((nextCut_iff).mpr rfl)

theorem exists_window (hmax : 0 < maxSpanChars) {i : Nat} (hi : i < paragraph.length) :
    ∃ start, Cut maxSpanChars paragraph start ∧ start ≤ i ∧
      i < windowEnd maxSpanChars paragraph start := by
  induction i with
  | zero => exact ⟨0, .start, Nat.le_refl 0, lt_windowEnd hmax hi⟩
  | succ i ih =>
    obtain ⟨start, hcut, hle, hlt⟩ := ih (by omega)
    by_cases hnext : i + 1 < windowEnd maxSpanChars paragraph start
    · exact ⟨start, hcut, by omega, hnext⟩
    · have heq : windowEnd maxSpanChars paragraph start = i + 1 := by omega
      refine ⟨i + 1, heq ▸ hcut.at_windowEnd (by omega), Nat.le_refl _, lt_windowEnd hmax hi⟩

theorem mem_chunkLoop (hmax : 0 < maxSpanChars) {steps offset : Nat} {chunks : List (Nat × List Char)}
    (h : chunkLoop maxSpanChars paragraph steps offset = some chunks)
    (hoffset : Cut maxSpanChars paragraph offset) {p : Nat × List Char} :
    p ∈ chunks ↔ ∃ start, Cut maxSpanChars paragraph start ∧ start < paragraph.length ∧
      offset ≤ start ∧ p ∈ placedChunk maxSpanChars paragraph start := by
  induction steps generalizing offset chunks with
  | zero =>
    rw [chunkLoop] at h
    split at h
    next => cases h
    next hle =>
      cases h
      constructor
      · rintro ⟨⟩
      · rintro ⟨start, -, hlt, hstart, -⟩
        omega
  | succ steps ih =>
    by_cases hlt : offset < paragraph.length
    · have hnext := lt_windowEnd hmax hlt
      rw [chunkLoop_succ steps hlt, Nat.max_eq_left hnext] at h
      obtain ⟨later, hlater, rfl⟩ := Option.map_eq_some_iff.mp h
      rw [List.mem_append, ih hlater (hoffset.at_windowEnd hlt)]
      constructor
      · rintro (hfirst | ⟨start, hcut, hstart, hle, hp⟩)
        · exact ⟨offset, hoffset, hlt, Nat.le_refl _, hfirst⟩
        · exact ⟨start, hcut, hstart, by omega, hp⟩
      · rintro ⟨start, hcut, hstart, hle, hp⟩
        rcases hcut.le_or_le hmax hoffset hlt with hback | hforth
        · have heq : start = offset := Nat.le_antisymm hback hle
          exact .inl (heq ▸ hp)
        · exact .inr ⟨start, hcut, hstart, hforth, hp⟩
    · rw [chunkLoop_of_le (Nat.not_lt.mp hlt)] at h
      cases h
      constructor
      · rintro ⟨⟩
      · rintro ⟨start, -, hstart, hle, -⟩
        omega

end Cuts

/-! ## Markers in a text -/

variable {part text : List Char} {c : Char}

/-- A part that does not start with a blank is in a text behind a blank if it is in both. -/
theorem infix_of_blank_cons (hpart : Stripped part) (hc : isSpace c = true)
    (h : part <:+: c :: text) : part <:+: text := by
  rcases List.infix_cons_iff.mp h with hprefix | hinfix
  · rcases List.prefix_cons_iff.mp hprefix with rfl | ⟨rest, rfl, -⟩
    · exact List.nil_infix
    · rw [hpart.1 c rfl] at hc
      cases hc
  · exact hinfix

theorem infix_of_concat_blank (hpart : Stripped part) (hc : isSpace c = true)
    (h : part <:+: text ++ [c]) : part <:+: text := by
  rcases List.infix_concat_iff.mp h with hsuffix | hinfix
  · rcases List.suffix_concat_iff.mp hsuffix with rfl | ⟨rest, rfl, -⟩
    · exact List.nil_infix
    · rw [hpart.2 c (by simp)] at hc
      cases hc
  · exact hinfix

theorem infix_of_blanks {before after : List Char} (hpart : Stripped part)
    (hbefore : ∀ c ∈ before, isSpace c = true) (hafter : ∀ c ∈ after, isSpace c = true)
    (h : part <:+: before ++ (text ++ after)) : part <:+: text := by
  have hfront : part <:+: text ++ after := by
    induction before with
    | nil => exact h
    | cons c before ih =>
      obtain ⟨hc, hbefore⟩ := List.forall_mem_cons.mp hbefore
      exact ih hbefore (infix_of_blank_cons hpart hc h)
  clear h
  induction after using List.reverseRecOn with
  | nil => rwa [List.append_nil] at hfront
  | append_singleton after c ih =>
    rw [← List.append_assoc] at hfront
    exact ih (fun d hd => hafter d (List.mem_append_left _ hd))
      (infix_of_concat_blank hpart (hafter c (by simp)) hfront)

theorem stripped_of_mem_instructionMarkers :
    ∀ marker ∈ instructionMarkers, Stripped marker.toList ∧ marker.toList ≠ [] := by
  have hall : instructionMarkers.all (fun marker => marker.toList.head?.all (!isSpace ·) &&
      marker.toList.getLast?.all (!isSpace ·) && !marker.toList.isEmpty) = true := by decide
  intro marker hmarker
  have hmarks := List.all_eq_true.mp hall marker hmarker
  simp only [Bool.and_eq_true, Option.all_eq_true, Bool.not_eq_true', List.isEmpty_eq_false_iff]
    at hmarks
  exact hmarks

theorem slice_append {lo mid hi : Nat} (hlo : lo ≤ mid) (hhi : mid ≤ hi) :
    slice text lo hi = slice text lo mid ++ slice text mid hi := by
  have hlength : hi - lo = (mid - lo) + (hi - mid) := by omega
  rw [slice, hlength, List.take_add, List.drop_drop, Nat.add_sub_cancel' hlo]
  rfl

theorem slice_succ {i : Nat} (h : text[i]? = some c) : slice text i (i + 1) = [c] := by
  obtain ⟨hi, rfl⟩ := List.getElem?_eq_some_iff.mp h
  rw [slice, Nat.add_sub_cancel_left, List.drop_eq_getElem_cons hi]
  rfl

theorem slice_eq_nil {lo hi : Nat} (h : hi ≤ lo) : slice text lo hi = [] := by
  rw [slice, Nat.sub_eq_zero_of_le h, List.take_zero]

section Marked

variable {host : EvidenceHost}

theorem casefold_append (first later : List Char) :
    host.casefold (first ++ later) = host.casefold first ++ host.casefold later :=
  List.flatMap_append

theorem casefold_blank {text : List Char} (h : ∀ c ∈ text, isSpace c = true) : host.casefold text = text := by
  induction text with
  | nil => rfl
  | cons c text ih =>
    obtain ⟨hc, h⟩ := List.forall_mem_cons.mp h
    rw [EvidenceHost.casefold, List.flatMap_cons, host.fold_space c hc]
    exact congrArg (c :: ·) (ih h)

theorem infix_casefold_slice {text part : List Char} {lo lo' hi' hi : Nat} (hlo : lo ≤ lo') (hhi : hi' ≤ hi)
    (h : part <:+: host.casefold (slice text lo' hi')) : part <:+: host.casefold (slice text lo hi) := by
  by_cases hle : lo' ≤ hi'
  · rw [slice_append hlo (hle.trans hhi), slice_append hle hhi, casefold_append, casefold_append]
    exact h.trans (List.infix_append' _ _ _)
  · rw [slice_eq_nil (Nat.le_of_not_le hle)] at h
    rw [List.infix_nil.mp h]
    exact List.nil_infix

theorem infix_casefold_windowChunk {maxSpanChars start : Nat} {paragraph part : List Char}
    (hpart : Stripped part) (h : part <:+: host.casefold (windowText maxSpanChars paragraph start)) :
    part <:+: host.casefold (windowChunk maxSpanChars paragraph start) := by
  obtain ⟨after, hafter, htext⟩ := @windowText_eq maxSpanChars paragraph start
  rw [htext, casefold_append, casefold_append, casefold_blank (fun _ => List.mem_takeWhile_imp),
    casefold_blank hafter] at h
  exact infix_of_blanks hpart (fun _ => List.mem_takeWhile_imp) hafter h

/-! ## Occurrences -/

variable {marker : String} {paragraph : List Char} {start stop : Nat}

theorem Occurs.lt (h : Occurs host marker paragraph start stop) (hmarker : marker.toList ≠ []) :
    start < stop := by
  by_contra hle
  have hholds := h.holds
  rw [slice_eq_nil (Nat.not_lt.mp hle)] at hholds
  exact hmarker (List.infix_nil.mp hholds)

theorem Occurs.first (h : Occurs host marker paragraph start stop)
    (hmarker : Stripped marker.toList ∧ marker.toList ≠ []) :
    ∃ c, paragraph[start]? = some c ∧ isSpace c = false := by
  have hlt := h.lt hmarker.2
  have hwithin := h.within
  refine ⟨paragraph[start], List.getElem?_eq_getElem (by omega), ?_⟩
  by_contra hc
  rw [Bool.not_eq_false] at hc
  have hholds := h.holds
  have hcons : slice paragraph start stop = [paragraph[start]] ++ slice paragraph (start + 1) stop := by
    rw [slice_append (Nat.le_succ start) hlt, slice_succ (List.getElem?_eq_getElem (by omega))]
  rw [hcons, casefold_append, casefold_blank (by simpa using hc)] at hholds
  have hrest := infix_of_blank_cons hmarker.1 hc hholds
  have heq := (h.shortest _ _ (Nat.le_succ start) (Nat.le_refl _) hrest).1
  omega

theorem Occurs.last (h : Occurs host marker paragraph start stop)
    (hmarker : Stripped marker.toList ∧ marker.toList ≠ []) :
    ∃ c, paragraph[stop - 1]? = some c ∧ isSpace c = false := by
  have hlt := h.lt hmarker.2
  have hwithin := h.within
  refine ⟨paragraph[stop - 1], List.getElem?_eq_getElem (by omega), ?_⟩
  by_contra hc
  rw [Bool.not_eq_false] at hc
  have hholds := h.holds
  have hconcat : slice paragraph start stop = slice paragraph start (stop - 1) ++ [paragraph[stop - 1]] := by
    have hlast := @slice_succ paragraph _ (stop - 1) (List.getElem?_eq_getElem (by omega))
    rw [Nat.sub_add_cancel (by omega)] at hlast
    rw [slice_append (by omega) (Nat.sub_le stop 1), hlast]
  rw [hconcat, casefold_append, @casefold_blank host [_] (by simpa using hc)] at hholds
  have hrest := infix_of_concat_blank hmarker.1 hc hholds
  have heq := (h.shortest _ _ (Nat.le_refl _) (Nat.sub_le stop 1) hrest).2
  omega

theorem exists_occurs {lo hi : Nat} (hhi : hi ≤ paragraph.length)
    (h : marker.toList <:+: host.casefold (slice paragraph lo hi)) (hmarker : marker.toList ≠ []) :
    ∃ start stop, lo ≤ start ∧ stop ≤ hi ∧ Occurs host marker paragraph start stop := by
  induction hlength : hi - lo using Nat.strongRecOn generalizing lo hi with
  | ind length ih =>
    by_cases hsmaller : ∃ lo' hi', lo ≤ lo' ∧ hi' ≤ hi ∧ hi' - lo' < length ∧
        marker.toList <:+: host.casefold (slice paragraph lo' hi')
    · obtain ⟨lo', hi', hle, hle', hshorter, hholds⟩ := hsmaller
      obtain ⟨start, stop, hstart, hstop, hoccurs⟩ :=
        ih _ hshorter (hle'.trans hhi) hholds rfl
      exact ⟨start, stop, hle.trans hstart, hstop.trans hle', hoccurs⟩
    · refine ⟨lo, hi, Nat.le_refl _, Nat.le_refl _, hhi, h, ?_⟩
      intro lo' hi' hlo' hhi' hholds
      have hnot : ¬hi' - lo' < length := fun hshorter =>
        hsmaller ⟨lo', hi', hlo', hhi', hshorter, hholds⟩
      have hlt : lo' < hi' := by
        by_contra hle
        rw [slice_eq_nil (Nat.not_lt.mp hle)] at hholds
        exact hmarker (List.infix_nil.mp hholds)
      omega

end Marked

/-! ## Windows and occurrences -/

section Windows

variable {maxSpanChars : Nat} {paragraph : List Char} {start : Nat}

theorem mem_placedChunk {c : Nat × List Char} (h : c ∈ placedChunk maxSpanChars paragraph start) :
    placedChunk maxSpanChars paragraph start = [c] ∧ c.2 = windowChunk maxSpanChars paragraph start := by
  rw [placedChunk] at h ⊢
  split at h
  next => cases h
  next hne =>
    cases List.mem_singleton.mp h
    exact ⟨if_neg hne, rfl⟩

theorem exists_placedChunk {i : Nat} {d : Char} (hlo : start ≤ i)
    (hhi : i < windowEnd maxSpanChars paragraph start) (hi : paragraph[i]? = some d)
    (hd : isSpace d = false) : ∃ c ∈ placedChunk maxSpanChars paragraph start, Covers c i := by
  have hwindow : (windowText maxSpanChars paragraph start)[i - start]? = some d := by
    rw [windowText, getElem?_take_drop (by omega), Nat.add_sub_cancel' hlo]
    exact hi
  have hcovers := tiles_placedChunk.exists_covers hwindow hd
  rwa [Nat.add_sub_cancel' hlo] at hcovers

theorem covers_of_mem_placedChunk {c : Nat × List Char} {i : Nat} {d : Char}
    (hc : c ∈ placedChunk maxSpanChars paragraph start) (hlo : start ≤ i)
    (hhi : i < windowEnd maxSpanChars paragraph start) (hi : paragraph[i]? = some d)
    (hd : isSpace d = false) : Covers c i := by
  obtain ⟨c', hc', hcovers⟩ := exists_placedChunk hlo hhi hi hd
  rw [(mem_placedChunk hc).1, List.mem_singleton] at hc'
  exact hc' ▸ hcovers

theorem placedChunk_bounds (hstart : start ≤ windowEnd maxSpanChars paragraph start) {c : Nat × List Char}
    (hc : c ∈ placedChunk maxSpanChars paragraph start) :
    start ≤ c.1 ∧ c.1 + c.2.length ≤ windowEnd maxSpanChars paragraph start ∧
      slice paragraph c.1 (c.1 + c.2.length) = c.2 := by
  have htiles := @tiles_placedChunk maxSpanChars paragraph start
  have hlo := (htiles.le_of_mem c hc).1
  have hhi := htiles.stop_le c hc
  rw [length_windowText hstart] at hhi
  refine ⟨hlo, hhi, ?_⟩
  have hslice := htiles.slice c hc
  rw [windowText, List.drop_take, List.drop_drop, List.take_take, Nat.add_sub_cancel' hlo,
    Nat.min_eq_left (by omega)] at hslice
  rw [slice, Nat.add_sub_cancel_left]
  exact hslice

end Windows

/-! ## Spans and occurrences -/

section Spans

variable {host : EvidenceHost} {sourceVersionId : String} {maxSpanChars : Nat} {evidence : ParsedEvidence}

theorem exists_span
    (hspans : evidence.spans = (((paragraphs evidence.text).flatMap (paragraphChunks maxSpanChars)).zipIdx
      1).map (fun p => spanOf host sourceVersionId p.2 p.1))
    {p c : Nat × List Char} (hp : p ∈ paragraphs evidence.text)
    (hc : c ∈ (chunkLoop maxSpanChars p.2 p.2.length 0).getD []) :
    ∃ span ∈ evidence.spans, span.start = p.1 + c.1 ∧ span.stop = p.1 + c.1 + c.2.length ∧
      span.untrustedInstructionMarkers = markersOf host c.2 := by
  have hmem : (p.1 + c.1, c.2) ∈ (paragraphs evidence.text).flatMap (paragraphChunks maxSpanChars) :=
    List.mem_flatMap.mpr ⟨p, hp, List.mem_map.mpr ⟨c, hc, rfl⟩⟩
  rw [← List.zipIdx_map_fst 1 (List.flatMap _ _)] at hmem
  obtain ⟨q, hq, hfst⟩ := List.mem_map.mp hmem
  refine ⟨_, hspans ▸ List.mem_map_of_mem hq, ?_⟩
  rw [hfst]
  exact ⟨rfl, rfl, rfl⟩

theorem exists_chunk
    (hspans : evidence.spans = (((paragraphs evidence.text).flatMap (paragraphChunks maxSpanChars)).zipIdx
      1).map (fun p => spanOf host sourceVersionId p.2 p.1))
    {span : StableSpan} (hspan : span ∈ evidence.spans) :
    ∃ p ∈ paragraphs evidence.text, ∃ c ∈ (chunkLoop maxSpanChars p.2 p.2.length 0).getD [],
      span.start = p.1 + c.1 ∧ span.stop = p.1 + c.1 + c.2.length ∧
        span.untrustedInstructionMarkers = markersOf host c.2 := by
  rw [hspans] at hspan
  obtain ⟨q, hq, rfl⟩ := List.mem_map.mp hspan
  obtain ⟨p, hp, hc⟩ := List.mem_flatMap.mp (List.fst_mem_of_mem_zipIdx hq)
  obtain ⟨c, hc, heq⟩ := List.mem_map.mp hc
  refine ⟨p, hp, c, hc, ?_⟩
  rw [← heq]
  exact ⟨rfl, rfl, rfl⟩

theorem mem_markersOf {marker : String} {chunk : List Char} :
    marker ∈ markersOf host chunk ↔ marker ∈ instructionMarkers ∧
      marker.toList <:+: host.casefold chunk := by
  simp [markersOf]

/-- A whole occurrence near another flags it: a cut between the two is what keeps its span away. -/
theorem flagged_of_uncut (hmax : 0 < maxSpanChars)
    {paragraph : List Char} {marker : String} (hmarker : marker ∈ instructionMarkers)
    {start stop start' stop' : Nat} (h : Occurs host marker paragraph start stop)
    (h' : Occurs host marker paragraph start' stop')
    (huncut : Uncut maxSpanChars paragraph start stop start' stop') :
    ∃ c ∈ (chunkLoop maxSpanChars paragraph paragraph.length 0).getD [],
      c.1 < stop ∧ start < c.1 + c.2.length ∧ marker ∈ markersOf host c.2 := by
  have hends := stripped_of_mem_instructionMarkers marker hmarker
  have hlt := h.lt hends.2
  have hlt' := h'.lt hends.2
  have hwithin' := h'.within
  obtain ⟨window, hcut, hlo, hhi⟩ := @exists_window _ paragraph hmax start' (by omega)
  have hwindow : window < paragraph.length := by omega
  have hstop := hcut.at_windowEnd hwindow
  obtain ⟨hinside, hbefore, -⟩ := huncut _ hstop
  obtain ⟨-, -, hbehind⟩ := huncut _ hcut
  have hwhole : stop' ≤ windowEnd maxSpanChars paragraph window := by omega
  obtain ⟨d, hd, hblank⟩ := h'.first hends
  obtain ⟨c, hc, hfirst⟩ := exists_placedChunk hlo hhi hd hblank
  have hcovers : ∀ i e, paragraph[i]? = some e → isSpace e = false → window ≤ i →
      i < windowEnd maxSpanChars paragraph window → c.1 ≤ i ∧ i < c.1 + c.2.length :=
    fun i e hi he hle hlt => covers_of_mem_placedChunk hc hle hlt hi he
  refine ⟨c, ?_, ?_⟩
  · exact (mem_chunkLoop hmax (chunkLoop_eq maxSpanChars paragraph) .start).mpr
      ⟨window, hcut, hwindow, Nat.zero_le _, hc⟩
  rw [← and_assoc]
  constructor
  · by_cases hleft : stop' ≤ start
    · -- The other occurrence stands before this one, whose first character is in the same window.
      obtain ⟨e, he, hblank'⟩ := h.first hends
      have hstart := hcovers start e he hblank' (by omega) (by omega)
      omega
    · by_cases hright : stop ≤ start'
      · -- It stands behind, and the last character of this one is in its window.
        obtain ⟨e, he, hblank'⟩ := h.last hends
        have hlast := hcovers (stop - 1) e he hblank' (by omega) (by omega)
        omega
      · obtain ⟨e, he, hblank'⟩ := h'.last hends
        have hlast := hcovers (stop' - 1) e he hblank' (by omega) (by omega)
        have hle : c.1 ≤ start' := hfirst.1
        omega
  · refine (mem_markersOf).mpr ⟨hmarker, ?_⟩
    rw [(mem_placedChunk hc).2]
    exact infix_casefold_windowChunk hends.1 (infix_casefold_slice hlo hwhole h'.holds)

/-- A chunk that lists a marker and overlaps an occurrence has a whole one, with no cut between the two. -/
theorem uncut_of_flagged (hmax : 0 < maxSpanChars) {paragraph : List Char} {marker : String}
    (hmarker : marker ∈ instructionMarkers) {start stop : Nat} {c : Nat × List Char}
    (hc : c ∈ (chunkLoop maxSpanChars paragraph paragraph.length 0).getD []) (hlo : c.1 < stop)
    (hhi : start < c.1 + c.2.length) (hlisted : marker ∈ markersOf host c.2) :
    ∃ start' stop', Occurs host marker paragraph start' stop' ∧
      Uncut maxSpanChars paragraph start stop start' stop' := by
  have hends := stripped_of_mem_instructionMarkers marker hmarker
  obtain ⟨window, hcut, hwindow, -, hplaced⟩ :=
    (mem_chunkLoop hmax (chunkLoop_eq maxSpanChars paragraph) .start).mp hc
  have hlt := lt_windowEnd hmax hwindow
  have hend : windowEnd maxSpanChars paragraph window ≤ paragraph.length :=
    windowEnd_le.trans (Nat.min_le_left _ _)
  obtain ⟨hfirst, hlast, hslice⟩ := placedChunk_bounds (Nat.le_of_lt hlt) hplaced
  obtain ⟨-, hholds⟩ := (mem_markersOf).mp hlisted
  rw [← hslice] at hholds
  obtain ⟨start', stop', hstart', hstop', hoccurs⟩ := exists_occurs (hlast.trans hend) hholds hends.2
  have hlt' := hoccurs.lt hends.2
  refine ⟨start', stop', hoccurs, fun k hk => ?_⟩
  have houtside := hk.le_or_le hmax hcut hwindow
  omega

theorem flagged_iff_whole (hmax : 0 < maxSpanChars)
    (hspans : evidence.spans = (((paragraphs evidence.text).flatMap (paragraphChunks maxSpanChars)).zipIdx
      1).map (fun p => spanOf host sourceVersionId p.2 p.1)) :
    Flagged host evidence ↔ WholeMarkers host maxSpanChars evidence.text := by
  constructor
  · intro hflagged p hp marker hmarker start stop hoccurs
    obtain ⟨span, hspan, hlo, hhi, hlisted⟩ := hflagged p hp marker hmarker start stop hoccurs
    obtain ⟨q, hq, c, hc, hstart, hstop, hmarkers⟩ := exists_chunk hspans hspan
    have htiles := tiles_paragraphs evidence.text
    have hchunks := tiles_chunkLoop hmax (chunkLoop_eq maxSpanChars q.2)
    have hbound := hchunks.stop_le c hc
    have hpositive := List.length_pos_iff.mpr (hchunks.le_of_mem c hc).2
    rw [List.drop_zero, Nat.zero_add] at hbound
    have hwithin := hoccurs.within
    -- The span and the occurrence overlap, so they are in one paragraph.
    have hsame : q = p := by
      have hlt := hoccurs.lt (stripped_of_mem_instructionMarkers marker hmarker).2
      apply htiles.covers_unique (max (p.1 + start) span.start) hq hp
      · constructor <;> omega
      · constructor <;> omega
    subst hsame
    rw [hmarkers] at hlisted
    exact uncut_of_flagged hmax hmarker hc (by omega) (by omega) hlisted
  · intro hwhole p hp marker hmarker start stop hoccurs
    obtain ⟨start', stop', hoccurs', huncut⟩ := hwhole p hp marker hmarker start stop hoccurs
    obtain ⟨c, hc, hlo, hhi, hlisted⟩ := flagged_of_uncut hmax hmarker hoccurs hoccurs' huncut
    obtain ⟨span, hspan, hstart, hstop, hmarkers⟩ := exists_span hspans hp hc
    exact ⟨span, hspan, by omega, by omega, hmarkers ▸ hlisted⟩

theorem maxSpanChars_pos {text : List Char}
    (h : (paragraphs text).flatMap (paragraphChunks maxSpanChars) ≠ []) : 0 < maxSpanChars := by
  obtain ⟨c, hc⟩ := List.exists_mem_of_ne_nil _ h
  obtain ⟨hne, hle, -⟩ := chunk_of_mem_placedChunks c hc
  have hpositive := List.length_pos_iff.mpr hne
  omega

end Spans

/-- The spans of an accepted body flag every marker exactly if no cut separates an occurrence from a whole
    one of the same marker. -/
theorem flagged_iff (host : EvidenceHost) (sourceVersionId : String) (body : ByteArray) (contentType : String)
    (maxSpanChars : Nat) {evidence : ParsedEvidence}
    (h : parseEvidence host sourceVersionId body contentType maxSpanChars = .ok evidence) :
    Flagged host evidence ↔ WholeMarkers host maxSpanChars evidence.text := by
  obtain ⟨hspans, hne⟩ := parseEvidence_eq_ok h
  exact flagged_iff_whole (maxSpanChars_pos hne) hspans

/-- `ignore previous` in spans of at most ten characters -/
theorem exists_parseEvidence_cut :
    ∃ evidence, parseEvidence smallHost "v1" "ignore previous".toUTF8 "text/plain" 10 = .ok evidence ∧
      evidence.text = "ignore previous".toList := by
  obtain ⟨evidence, hok, htext⟩ := @exists_parseEvidence smallHost "v1" "ignore previous".toUTF8
    "text/plain" 10 (by decide) (by decide) (by decide) (by decide) _ (fromUTF8?_toUTF8 _) (by decide)
    (by decide)
  refine ⟨evidence, hok, ?_⟩
  rw [htext]
  decide

theorem flagged_iff_cut :
    ∃ evidence, parseEvidence smallHost "v1" "ignore previous".toUTF8 "text/plain" 10 = .ok evidence ∧
      (Flagged smallHost evidence ↔ WholeMarkers smallHost 10 evidence.text) := by
  obtain ⟨evidence, hok, -⟩ := exists_parseEvidence_cut
  exact ⟨evidence, hok, flagged_iff smallHost "v1" _ "text/plain" 10 hok⟩

theorem casefold_smallHost (text : List Char) : smallHost.casefold text = text :=
  List.flatMap_singleton' text

/-- The cut falls on the space of the marker, and no span lists it. -/
theorem marker_unflagged :
    ∃ evidence, parseEvidence smallHost "v1" "ignore previous".toUTF8 "text/plain" 10 = .ok evidence ∧
      ¬Flagged smallHost evidence := by
  obtain ⟨evidence, hok, htext⟩ := exists_parseEvidence_cut
  refine ⟨evidence, hok, fun hflagged => ?_⟩
  obtain ⟨hspans, -⟩ := parseEvidence_eq_ok hok
  have hparagraphs : paragraphs evidence.text = [(0, "ignore previous".toList)] := by
    rw [htext]
    decide
  have hoccurs : Occurs smallHost "ignore previous" "ignore previous".toList 0 15 := by
    refine ⟨by decide, by decide, fun start' stop' hstart hstop hholds => ?_⟩
    rw [casefold_smallHost] at hholds
    have hlength := hholds.length_le
    have hslice : (slice "ignore previous".toList start' stop').length ≤ stop' - start' :=
      List.length_take_le _ _
    have hmarker : "ignore previous".toList.length = 15 := by decide
    omega
  obtain ⟨span, hspan, -, -, hlisted⟩ := hflagged (0, "ignore previous".toList)
    (by rw [hparagraphs]; exact List.mem_singleton.mpr rfl) "ignore previous" (by decide) 0 15 hoccurs
  obtain ⟨p, hp, c, hc, -, -, hmarkers⟩ := exists_chunk hspans hspan
  rw [hparagraphs, List.mem_singleton] at hp
  subst hp
  have hnone : ∀ c ∈ (chunkLoop 10 "ignore previous".toList "ignore previous".toList.length 0).getD [],
      markersOf smallHost c.2 = [] := by decide +kernel
  rw [hmarkers, hnone c hc] at hlisted
  cases hlisted

end Domain
