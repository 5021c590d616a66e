-- SUMMARY: The digests of the ASCII runtime again, computed on numbers, so that a concrete run is evaluated in less time.
import SiraSeil.Domain.Hashing

/-!
# Digests on numbers

A run on concrete inputs hashes many values, and the kernel evaluates it. This
file computes the same digests with what the kernel has for numbers: the bytes
of a text come from its encoding, and a word is evaluated before the next round
reads it.
-/

namespace Domain

open Sorting

/-! ## Rounds on evaluated words -/

namespace Sha256

/-- `f` of a number that is evaluated first. -/
def strictly {α : Type} (n : Nat) (f : Nat → α) : α :=
  Nat.rec (f 0) (fun m _ => f m.succ) n

@[simp] theorem strictly_eq {α : Type} (n : Nat) (f : Nat → α) : strictly n f = f n := by
  cases n <;> rfl

def word (n : Nat) : Nat := Nat.mod n 4294967296

/-- `rotr` by `n`, where `n` and `m` add up to the length of a word -/
def turn (x n m : Nat) : Nat :=
  word (Nat.lor (Nat.shiftRight x n) (Nat.shiftLeft x m))

/-- `rounds` over the words of the window -/
def wordRounds : List Nat → (w₀ w₁ w₂ w₃ w₄ w₅ w₆ w₇ w₈ w₉ w₁₀ w₁₁ w₁₂ w₁₃ w₁₄ w₁₅ : Nat) →
    (a b c d e f g h : Nat) → State
  | [], _, _, _, _, _, _, _, _, _, _, _, _, _, _, _, _, a, b, c, d, e, f, g, h =>
    ⟨a, b, c, d, e, f, g, h⟩
  | k :: ks, w₀, w₁, w₂, w₃, w₄, w₅, w₆, w₇, w₈, w₉, w₁₀, w₁₁, w₁₂, w₁₃, w₁₄, w₁₅,
      a, b, c, d, e, f, g, h =>
    let sum₁ := Nat.xor (Nat.xor (turn e 6 26) (turn e 11 21)) (turn e 25 7)
    let choice := Nat.xor (Nat.land e f) (Nat.land (Nat.sub 4294967295 e) g)
    let sum₀ := Nat.xor (Nat.xor (turn a 2 30) (turn a 13 19)) (turn a 22 10)
    let majority := Nat.xor (Nat.xor (Nat.land a b) (Nat.land a c)) (Nat.land b c)
    let sigma₀ := Nat.xor (Nat.xor (turn w₁ 7 25) (turn w₁ 18 14)) (Nat.shiftRight w₁ 3)
    let sigma₁ := Nat.xor (Nat.xor (turn w₁₄ 17 15) (turn w₁₄ 19 13)) (Nat.shiftRight w₁₄ 10)
    strictly (word (Nat.add (Nat.add (Nat.add (Nat.add h sum₁) choice) k) w₀)) fun t₁ =>
    strictly (word (Nat.add t₁ (word (Nat.add sum₀ majority)))) fun a' =>
    strictly (word (Nat.add d t₁)) fun e' =>
    strictly (word (Nat.add (Nat.add (Nat.add w₀ sigma₀) w₉) sigma₁)) fun w₁₆ =>
    wordRounds ks w₁ w₂ w₃ w₄ w₅ w₆ w₇ w₈ w₉ w₁₀ w₁₁ w₁₂ w₁₃ w₁₄ w₁₅ w₁₆ a' a b c e' e f g

theorem wordRounds_eq (ks : List Nat)
    (w₀ w₁ w₂ w₃ w₄ w₅ w₆ w₇ w₈ w₉ w₁₀ w₁₁ w₁₂ w₁₃ w₁₄ w₁₅ a b c d e f g h : Nat) :
    wordRounds ks w₀ w₁ w₂ w₃ w₄ w₅ w₆ w₇ w₈ w₉ w₁₀ w₁₁ w₁₂ w₁₃ w₁₄ w₁₅ a b c d e f g h =
      rounds ks [w₀, w₁, w₂, w₃, w₄, w₅, w₆, w₇, w₈, w₉, w₁₀, w₁₁, w₁₂, w₁₃, w₁₄, w₁₅]
        ⟨a, b, c, d, e, f, g, h⟩ := by
  induction ks generalizing w₀ w₁ w₂ w₃ w₄ w₅ w₆ w₇ w₈ w₉ w₁₀ w₁₁ w₁₂ w₁₃ w₁₄ w₁₅ a b c d e f g h with
  | nil => rfl
  | cons k ks ih =>
    simp only [wordRounds, strictly_eq, ih]
    rfl

/-- `State.add` on evaluated words -/
def addStrictly {α : Type} (s t : State) (f : State → α) : α :=
  strictly (word (Nat.add s.a t.a)) fun a =>
  strictly (word (Nat.add s.b t.b)) fun b =>
  strictly (word (Nat.add s.c t.c)) fun c =>
  strictly (word (Nat.add s.d t.d)) fun d =>
  strictly (word (Nat.add s.e t.e)) fun e =>
  strictly (word (Nat.add s.f t.f)) fun f' =>
  strictly (word (Nat.add s.g t.g)) fun g =>
  strictly (word (Nat.add s.h t.h)) fun h => f ⟨a, b, c, d, e, f', g, h⟩

@[simp] theorem addStrictly_eq {α : Type} (s t : State) (f : State → α) :
    addStrictly s t f = f (s.add t) := by
  unfold addStrictly
  simp only [strictly_eq]
  rfl

/-- `blocks`, as long as there are sixteen words in a block -/
def wordBlocks : Nat → List Nat → State → State
  | 0, _, s => s
  | n + 1, w₀ :: w₁ :: w₂ :: w₃ :: w₄ :: w₅ :: w₆ :: w₇ :: w₈ :: w₉ :: w₁₀ :: w₁₁ :: w₁₂ :: w₁₃ ::
      w₁₄ :: w₁₅ :: words, s =>
    addStrictly s (wordRounds constants w₀ w₁ w₂ w₃ w₄ w₅ w₆ w₇ w₈ w₉ w₁₀ w₁₁ w₁₂ w₁₃ w₁₄ w₁₅
      s.a s.b s.c s.d s.e s.f s.g s.h) (wordBlocks n words)
  | n + 1, words, s => blocks (n + 1) words s

theorem blocks_succ (n : Nat)
    (w₀ w₁ w₂ w₃ w₄ w₅ w₆ w₇ w₈ w₉ w₁₀ w₁₁ w₁₂ w₁₃ w₁₄ w₁₅ : Nat) (words : List Nat) (s : State) :
    blocks (n + 1) (w₀ :: w₁ :: w₂ :: w₃ :: w₄ :: w₅ :: w₆ :: w₇ :: w₈ :: w₉ :: w₁₀ :: w₁₁ :: w₁₂ ::
      w₁₃ :: w₁₄ :: w₁₅ :: words) s =
    blocks n words (s.add (rounds constants
      [w₀, w₁, w₂, w₃, w₄, w₅, w₆, w₇, w₈, w₉, w₁₀, w₁₁, w₁₂, w₁₃, w₁₄, w₁₅] s)) := by
  rw [blocks]
  -- The rounds are not to be unfolded for the constants.
  generalize constants = ks
  rfl

theorem wordBlocks_eq (n : Nat) (words : List Nat) (s : State) :
    wordBlocks n words s = blocks n words s := by
  induction n generalizing words s with
  | zero => rfl
  | succ n ih =>
    unfold wordBlocks
    split
    · contradiction
    · next heq =>
      cases heq
      rw [addStrictly_eq, ih, wordRounds_eq, blocks_succ]
    · next hsucc _ =>
      rw [Nat.succ.inj hsucc]

/-- `hexWord` -/
def hexDigitsOf (n : Nat) : List Char :=
  let digit (places : Nat) := strictly (Nat.mod (Nat.shiftRight n places) 16) Nat.digitChar
  [digit 28, digit 24, digit 20, digit 16, digit 12, digit 8, digit 4, digit 0]

theorem hexDigitsOf_eq (n : Nat) : hexDigitsOf n = hexWord n := by
  simp only [hexDigitsOf, strictly_eq]
  rfl

/-- `hexdigest` -/
def wordDigest (bytes : List Nat) : String :=
  let words := toWords (bytes ++ padding bytes.length)
  String.ofList ((wordBlocks (words.length / 16) words .initial).words.flatMap hexDigitsOf)

theorem wordDigest_eq (bytes : List Nat) : wordDigest bytes = hexdigest bytes := by
  unfold wordDigest hexdigest
  simp only [wordBlocks_eq, funext hexDigitsOf_eq]

end Sha256

/-! ## Bytes of canonical texts -/

namespace Rfc8785

theorem utf8_cons (c : Char) (cs : List Char) : Runtime.utf8 (c :: cs) = Runtime.utf8 [c] ++ Runtime.utf8 cs := by
  simp [Runtime.utf8]

theorem utf8_append (cs ds : List Char) : Runtime.utf8 (cs ++ ds) = Runtime.utf8 cs ++ Runtime.utf8 ds :=
  List.flatMap_append

theorem utf8_singleton_of_lt {c : Char} (h : c.toNat < 128) : Runtime.utf8 [c] = [c.toNat] := by
  have hle : c.val.toNat ≤ 127 := by
    have hval : c.val.toNat < 128 := h
    omega
  simp only [Runtime.utf8, List.flatMap_cons, List.flatMap_nil, List.append_nil, String.utf8EncodeChar,
    if_pos hle, List.map_cons, List.map_nil]
  rw [UInt8.toNat_ofNat', Nat.mod_eq_of_lt (by omega)]
  rfl

theorem le_of_mem_utf8_singleton {c : Char} (h : 128 ≤ c.toNat) {b : Nat} (hb : b ∈ Runtime.utf8 [c]) :
    128 ≤ b := by
  have hlow : ¬ c.val.toNat ≤ 127 := by
    have hval : 128 ≤ c.val.toNat := h
    omega
  simp only [Runtime.utf8, List.flatMap_cons, List.flatMap_nil, List.append_nil, String.utf8EncodeChar,
    if_neg hlow] at hb
  split at hb
  · simp only [List.map_cons, List.map_nil, List.mem_cons, List.not_mem_nil, or_false,
      UInt8.toNat_ofNat'] at hb
    omega
  · split at hb
    · simp only [List.map_cons, List.map_nil, List.mem_cons, List.not_mem_nil, or_false,
        UInt8.toNat_ofNat'] at hb
      omega
    · simp only [List.map_cons, List.map_nil, List.mem_cons, List.not_mem_nil, or_false,
        UInt8.toNat_ofNat'] at hb
      omega

/-- The encoding that a string is stored in -/
def bytes (s : String) : List Nat :=
  s.toByteArray.data.toList.map UInt8.toNat

theorem bytes_eq (s : String) : bytes s = Runtime.utf8 s.toList := by
  unfold bytes Runtime.utf8
  rw [← String.utf8Encode_toList, List.utf8Encode, List.data_toByteArray, List.map_flatMap]

/-- `escaped` on bytes -/
def escapedByte (b : Nat) : List Nat :=
  bif Nat.beq b 34 then [92, 34]
  else bif Nat.beq b 92 then [92, 92]
  else bif Nat.ble 32 b then [b]
  else bif Nat.beq b 8 then [92, 98]
  else bif Nat.beq b 9 then [92, 116]
  else bif Nat.beq b 10 then [92, 110]
  else bif Nat.beq b 12 then [92, 102]
  else bif Nat.beq b 13 then [92, 114]
  else [92, 117, 48, 48, (Nat.digitChar (b / 16)).toNat, (Nat.digitChar (b % 16)).toNat]

theorem utf8_escaped (c : Char) : Runtime.utf8 (escaped c) = (Runtime.utf8 [c]).flatMap escapedByte := by
  by_cases h : c.toNat < 128
  · have hall : (List.range 128).all (fun n =>
        Runtime.utf8 (escaped (Char.ofNat n)) == (Runtime.utf8 [Char.ofNat n]).flatMap escapedByte) = true := by
      decide +kernel
    have hown := List.all_eq_true.mp hall c.toNat (List.mem_range.mpr h)
    rw [Char.ofNat_toNat] at hown
    exact eq_of_beq hown
  · have hescaped : escaped c = [c] := by
      have hne : ∀ d : Char, d.toNat < 128 → c ≠ d := by
        rintro d hd rfl
        exact h hd
      unfold escaped
      simp only [if_neg (hne '"' (by decide)), if_neg (hne '\\' (by decide))]
      split_ifs <;> first | omega | rfl
    rw [hescaped]
    conv_lhs => rw [← List.flatMap_singleton' (Runtime.utf8 [c])]
    refine List.flatMap_congr (fun b hb => ?_)
    have hle := le_of_mem_utf8_singleton (by omega) hb
    rw [escapedByte, Bool.eq_false_iff.mpr (fun heq => absurd (Nat.eq_of_beq_eq_true heq) (by omega)),
      Bool.eq_false_iff.mpr (fun heq => absurd (Nat.eq_of_beq_eq_true heq) (by omega)),
      Nat.ble_eq.mpr (by omega)]
    rfl

/-- `quoted` on bytes -/
def quotedBytes (bs : List Nat) : List Nat :=
  34 :: (bs.flatMap escapedByte ++ [34])

theorem utf8_quoted (cs : List Char) : Runtime.utf8 (quoted cs) = quotedBytes (Runtime.utf8 cs) := by
  have hescaped : Runtime.utf8 (cs.flatMap escaped) = (Runtime.utf8 cs).flatMap escapedByte := by
    induction cs with
    | nil => rfl
    | cons c cs ih =>
      rw [List.flatMap_cons, utf8_append, ih, utf8_escaped, utf8_cons c cs, List.flatMap_append]
  unfold quoted quotedBytes
  rw [List.cons_append, utf8_cons, utf8_append, hescaped]
  rfl

def atomBytes : Atom → List Nat
  | .null => [110, 117, 108, 108]
  | .bool true => [116, 114, 117, 101]
  | .bool false => [102, 97, 108, 115, 101]
  | .str s => quotedBytes (bytes s)
  | a => Runtime.utf8 (atomText a)

theorem utf8_atomText (a : Atom) : Runtime.utf8 (atomText a) = atomBytes a := by
  cases a with
  | str s => rw [atomBytes, bytes_eq, atomText, utf8_quoted]
  | bool b => cases b <;> decide +kernel
  | null => decide +kernel
  | _ => rfl

theorem utf8_joined (texts : List (List Char)) :
    Runtime.utf8 (joined texts) = [44].intercalate (texts.map Runtime.utf8) := by
  unfold joined
  induction texts with
  | nil => rfl
  | cons text texts ih =>
    cases texts with
    | nil => simp [Runtime.utf8]
    | cons next texts =>
      rw [List.intercalate_cons_cons, utf8_append, utf8_append, ih]
      simp only [List.map_cons, List.intercalate_cons_cons]
      rfl

/-! ### Members in the order of their names -/

/-- The order of texts on their bytes -/
def byteLe : List Nat → List Nat → Bool
  | [], _ => true
  | _ :: _, [] => false
  | a :: as, b :: bs => bif Nat.beq a b then byteLe as bs else Nat.ble a b

theorem byteLe_map {cs ds : List Char} :
    byteLe (cs.map Char.toNat) (ds.map Char.toNat) = true ↔ ¬ ds < cs := by
  induction cs generalizing ds with
  | nil => simp [byteLe]
  | cons c cs ih =>
    cases ds with
    | nil => simp [byteLe]
    | cons d ds =>
      have hlt : d < c ↔ d.toNat < c.toNat := Iff.rfl
      rw [List.cons_lt_cons_iff, hlt, List.map_cons, List.map_cons, byteLe]
      by_cases heq : c = d
      · subst heq
        rw [Nat.beq_refl, cond_true, ih]
        simp
      · have hne : c.toNat ≠ d.toNat := fun hval => heq (Char.toNat_inj.mp hval)
        rw [Bool.eq_false_iff.mpr (fun hval => hne (Nat.eq_of_beq_eq_true hval)), cond_false,
          Nat.ble_eq]
        simp [Ne.symm heq]

def isAscii (bs : List Nat) : Bool := bs.all (fun b => Nat.blt b 128)

theorem utf8_of_isAscii {cs : List Char} (h : isAscii (Runtime.utf8 cs) = true) :
    Runtime.utf8 cs = cs.map Char.toNat := by
  induction cs with
  | nil => rfl
  | cons c cs ih =>
    rw [utf8_cons] at h ⊢
    obtain ⟨hc, hcs⟩ := Bool.and_eq_true_iff.mp (List.all_append.symm.trans h)
    by_cases hlt : c.toNat < 128
    · rw [utf8_singleton_of_lt hlt, ih hcs]
      rfl
    · obtain ⟨b, hb⟩ := List.exists_mem_of_ne_nil (Runtime.utf8 [c]) (by
        simp [Runtime.utf8, String.utf8EncodeChar_ne_nil])
      have hle := le_of_mem_utf8_singleton (by omega) hb
      have hascii := Nat.le_of_ble_eq_true (List.all_eq_true.mp hc b hb)
      omega

/-- The order of names, on bytes when they are ASCII -/
def nameLe (s t : String) : Bool :=
  bif isAscii (bytes s) && isAscii (bytes t) then byteLe (bytes s) (bytes t) else decide (s ≤ t)

theorem nameLe_iff {s t : String} : nameLe s t = true ↔ s ≤ t := by
  unfold nameLe
  cases h : isAscii (bytes s) && isAscii (bytes t) with
  | false => rw [cond_false, decide_eq_true_eq]
  | true =>
    obtain ⟨hs, ht⟩ := Bool.and_eq_true_iff.mp h
    rw [bytes_eq] at hs ht
    rw [cond_true, bytes_eq, bytes_eq, utf8_of_isAscii hs, utf8_of_isAscii ht, byteLe_map]
    exact Iff.rfl

mutual
/-- `dumps` as bytes -/
def dumpBytes : Value → List Nat
  | .atom a => atomBytes a
  | .seq xs => 91 :: ([44].intercalate (seqBytes xs) ++ [93])
  | .obj fields =>
    123 :: ([44].intercalate (((fieldBytes fields).insertionSort (fun p q => nameLe p.1 q.1)).map
      (fun p => quotedBytes (bytes p.1) ++ 58 :: p.2)) ++ [125])

def seqBytes : List Value → List (List Nat)
  | [] => []
  | x :: xs => dumpBytes x :: seqBytes xs

def fieldBytes : List (String × Value) → List (String × List Nat)
  | [] => []
  | (name, v) :: fields => (name, dumpBytes v) :: fieldBytes fields
end

theorem sortedBy_eq {α β : Type} (f : α → β) (l : List (String × α)) :
    (sortedBy Prod.fst l).map (Prod.map id f) =
      (l.map (Prod.map id f)).insertionSort (fun p q => nameLe p.1 q.1) :=
  List.map_insertionSort _ _ _ _ (fun _ _ _ _ => nameLe_iff.symm)

theorem utf8_member (p : String × List Char) :
    Runtime.utf8 (quoted p.1.toList ++ ':' :: p.2) =
      quotedBytes (bytes p.1) ++ 58 :: Runtime.utf8 p.2 := by
  rw [utf8_append, utf8_quoted, bytes_eq, utf8_cons ':']
  rfl

mutual
theorem utf8_dumps : (v : Value) → Runtime.utf8 (dumps v) = dumpBytes v
  | .atom a => utf8_atomText a
  | .seq xs => by
    rw [dumps, dumpBytes, List.cons_append, utf8_cons, utf8_append, utf8_joined, map_seqTexts]
    rfl
  | .obj fields => by
    rw [dumps, dumpBytes, List.cons_append, utf8_cons, utf8_append, utf8_joined, ← map_fieldTexts,
      ← sortedBy_eq, List.map_map, List.map_map]
    simp only [Function.comp_def, utf8_member]
    rfl

theorem map_seqTexts : (xs : List Value) → (seqTexts xs).map Runtime.utf8 = seqBytes xs
  | [] => rfl
  | x :: xs => by rw [seqTexts, seqBytes, List.map_cons, utf8_dumps x, map_seqTexts xs]

theorem map_fieldTexts : (fields : List (String × Value)) →
    (fieldTexts fields).map (Prod.map id Runtime.utf8) = fieldBytes fields
  | [] => rfl
  | (name, v) :: fields => by
    rw [fieldTexts, fieldBytes, List.map_cons, map_fieldTexts fields, Prod.map, utf8_dumps v, id]
end

end Rfc8785

/-! ## The runtime -/

/-- The runtime on ASCII text, with digests on numbers -/
def Runtime.evaluated : Runtime :=
  { Runtime.ascii with hexdigest := fun v => Sha256.wordDigest (Rfc8785.dumpBytes v) }

theorem Runtime.ascii_eq : Runtime.ascii = Runtime.evaluated := by
  unfold Runtime.evaluated Runtime.ascii
  congr 1
  funext v
  rw [Sha256.wordDigest_eq, Rfc8785.utf8_dumps]

end Domain
