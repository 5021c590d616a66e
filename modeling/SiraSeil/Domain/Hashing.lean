-- SUMMARY: RFC 8785 text, SHA-256 and the runtime built on them, so that hashes and plan ids can be computed.
import SiraSeil.Domain.Values
import Mathlib.Data.List.DropRight
import Mathlib.Tactic.IntervalCases

/-!
# Canonical text and digests

The results about the engine hold for every `Runtime`. This module builds one
that computes: the RFC 8785 text of a value with the timestamps of
`_datetime_text`, its SHA-256 digest, and the ASCII part of `str.casefold` and
`Fraction`.
-/

namespace Domain

open Sorting

/-! ## Canonical text -/

namespace Rfc8785

/-- Decimal digits, padded with zeros to a width. -/
def padded (width n : Nat) : List Char :=
  let digits := Nat.toDigits 10 n
  List.replicate (width - digits.length) '0' ++ digits

/-- `_datetime_text`: the proleptic Gregorian date of a day count, then the time. -/
def datetimeText (micros : Int) : List Char :=
  let second := (micros / 1000000 + 719468 * 86400).toNat
  let micro := (micros % 1000000).toNat
  let day := second / 86400
  let time := second % 86400
  -- Years start in March here, so that the leap day is the last of its year.
  let era := day / 146097
  let dayOfEra := day % 146097
  let yearOfEra := (dayOfEra - dayOfEra / 1460 + dayOfEra / 36524 - dayOfEra / 146096) / 365
  let dayOfYear := dayOfEra - (365 * yearOfEra + yearOfEra / 4 - yearOfEra / 100)
  let shifted := (5 * dayOfYear + 2) / 153
  let month := if shifted < 10 then shifted + 3 else shifted - 9
  let year := yearOfEra + era * 400 + (if month ≤ 2 then 1 else 0)
  padded 4 year ++ '-' :: padded 2 month ++
    '-' :: padded 2 (dayOfYear - (153 * shifted + 2) / 5 + 1) ++
    'T' :: padded 2 (time / 3600) ++ ':' :: padded 2 (time / 60 % 60) ++
    ':' :: padded 2 (time % 60) ++
    (if micro = 0 then [] else '.' :: padded 6 micro) ++ ['Z']

def escaped (c : Char) : List Char :=
  let n := c.toNat
  if c = '"' then ['\\', '"']
  else if c = '\\' then ['\\', '\\']
  else if n = 8 then ['\\', 'b']
  else if n = 9 then ['\\', 't']
  else if n = 10 then ['\\', 'n']
  else if n = 12 then ['\\', 'f']
  else if n = 13 then ['\\', 'r']
  else if n < 32 then
    ['\\', 'u', '0', '0', Nat.digitChar (n / 16), Nat.digitChar (n % 16)]
  else [c]

def quoted (cs : List Char) : List Char :=
  '"' :: cs.flatMap escaped ++ ['"']

def atomText : Atom → List Char
  | .null => "null".toList
  | .bool true => "true".toList
  | .bool false => "false".toList
  | .int n => if n < 0 then '-' :: Nat.toDigits 10 n.natAbs else Nat.toDigits 10 n.natAbs
  | .str s => quoted s.toList
  | .datetime d => quoted (datetimeText d.micros)

/-- The texts of a list, separated by commas. -/
def joined (texts : List (List Char)) : List Char :=
  [','].intercalate texts

mutual
/-- `rfc8785.dumps`: no spaces, object members in the order of their names. -/
def dumps : Value → List Char
  | .atom a => atomText a
  | .seq xs => '[' :: joined (seqTexts xs) ++ [']']
  | .obj fields =>
    Char.ofNat 123 :: joined ((sortedBy Prod.fst (fieldTexts fields)).map
      (fun p => quoted p.1.toList ++ ':' :: p.2)) ++ [Char.ofNat 125]

def seqTexts : List Value → List (List Char)
  | [] => []
  | x :: xs => dumps x :: seqTexts xs

def fieldTexts : List (String × Value) → List (String × List Char)
  | [] => []
  | (name, v) :: fields => (name, dumps v) :: fieldTexts fields
end

end Rfc8785

/-! ## SHA-256 -/

namespace Sha256

/-- A word is a number below `2 ^ 32`. -/
def rotr (x n : Nat) : Nat :=
  (x >>> n ||| x <<< (32 - n)) % 2 ^ 32

/-- The round constants. -/
def constants : List Nat :=
  [0x428a2f98, 0x71374491, 0xb5c0fbcf, 0xe9b5dba5, 0x3956c25b, 0x59f111f1, 0x923f82a4, 0xab1c5ed5,
   0xd807aa98, 0x12835b01, 0x243185be, 0x550c7dc3, 0x72be5d74, 0x80deb1fe, 0x9bdc06a7, 0xc19bf174,
   0xe49b69c1, 0xefbe4786, 0x0fc19dc6, 0x240ca1cc, 0x2de92c6f, 0x4a7484aa, 0x5cb0a9dc, 0x76f988da,
   0x983e5152, 0xa831c66d, 0xb00327c8, 0xbf597fc7, 0xc6e00bf3, 0xd5a79147, 0x06ca6351, 0x14292967,
   0x27b70a85, 0x2e1b2138, 0x4d2c6dfc, 0x53380d13, 0x650a7354, 0x766a0abb, 0x81c2c92e, 0x92722c85,
   0xa2bfe8a1, 0xa81a664b, 0xc24b8b70, 0xc76c51a3, 0xd192e819, 0xd6990624, 0xf40e3585, 0x106aa070,
   0x19a4c116, 0x1e376c08, 0x2748774c, 0x34b0bcb5, 0x391c0cb3, 0x4ed8aa4a, 0x5b9cca4f, 0x682e6ff3,
   0x748f82ee, 0x78a5636f, 0x84c87814, 0x8cc70208, 0x90befffa, 0xa4506ceb, 0xbef9a3f7, 0xc67178f2]

structure State where
  (a b c d e f g h : Nat)

def State.initial : State :=
  ⟨0x6a09e667, 0xbb67ae85, 0x3c6ef372, 0xa54ff53a, 0x510e527f, 0x9b05688c, 0x1f83d9ab, 0x5be0cd19⟩

def State.add (s t : State) : State :=
  ⟨(s.a + t.a) % 2 ^ 32, (s.b + t.b) % 2 ^ 32, (s.c + t.c) % 2 ^ 32, (s.d + t.d) % 2 ^ 32,
   (s.e + t.e) % 2 ^ 32, (s.f + t.f) % 2 ^ 32, (s.g + t.g) % 2 ^ 32, (s.h + t.h) % 2 ^ 32⟩

def State.words (s : State) : List Nat :=
  [s.a, s.b, s.c, s.d, s.e, s.f, s.g, s.h]

/-- The rounds of one block. The message schedule is a window of sixteen words,
    which every round shifts by one. -/
def rounds : List Nat → List Nat → State → State
  | [], _, s => s
  | _ :: _, [], s => s
  | k :: ks, w :: window, s =>
    let sum1 := rotr s.e 6 ^^^ rotr s.e 11 ^^^ rotr s.e 25
    let choice := (s.e &&& s.f) ^^^ ((2 ^ 32 - 1 - s.e) &&& s.g)
    let t1 := (s.h + sum1 + choice + k + w) % 2 ^ 32
    let sum0 := rotr s.a 2 ^^^ rotr s.a 13 ^^^ rotr s.a 22
    let majority := (s.a &&& s.b) ^^^ (s.a &&& s.c) ^^^ (s.b &&& s.c)
    let t2 := (sum0 + majority) % 2 ^ 32
    let w1 := window.getD 0 0
    let w14 := window.getD 13 0
    let sigma0 := rotr w1 7 ^^^ rotr w1 18 ^^^ (w1 >>> 3)
    let sigma1 := rotr w14 17 ^^^ rotr w14 19 ^^^ (w14 >>> 10)
    rounds ks (window ++ [(w + sigma0 + window.getD 8 0 + sigma1) % 2 ^ 32])
      ⟨(t1 + t2) % 2 ^ 32, s.a, s.b, s.c, (s.d + t1) % 2 ^ 32, s.e, s.f, s.g⟩

def blocks : Nat → List Nat → State → State
  | 0, _, s => s
  | n + 1, words, s => blocks n (words.drop 16) (s.add (rounds constants (words.take 16) s))

def toWords : List Nat → List Nat
  | a :: b :: c :: d :: bytes => (a * 2 ^ 24 + b * 2 ^ 16 + c * 2 ^ 8 + d) :: toWords bytes
  | _ => []

/-- One bit, zeros, and the length of the message in bits. -/
def padding (length : Nat) : List Nat :=
  0x80 :: List.replicate ((55 + 64 - length % 64) % 64) 0 ++
    (List.range 8).map (fun i => (8 * length) >>> (8 * (7 - i)) % 256)

def hexWord (n : Nat) : List Char :=
  (List.range 8).map (fun i => Nat.digitChar (n >>> (4 * (7 - i)) % 16))

def hexdigest (bytes : List Nat) : String :=
  let words := toWords (bytes ++ padding bytes.length)
  String.ofList ((blocks (words.length / 16) words .initial).words.flatMap hexWord)

end Sha256

/-! ## The runtime -/

namespace Runtime

def utf8 (cs : List Char) : List Nat :=
  cs.flatMap (fun c => (String.utf8EncodeChar c).map UInt8.toNat)

/-- A number from decimal digits; `none` for anything else. -/
def digits? (cs : List Char) : Option Nat :=
  if cs.isEmpty || !cs.all Char.isDigit then none
  else some (cs.foldl (fun n c => 10 * n + (c.toNat - '0'.toNat)) 0)

/-- The unsigned forms `n`, `n/d` and `n.f` of `Fraction`. -/
def unsigned (cs : List Char) : Option (Py ℚ) :=
  let whole := cs.takeWhile Char.isDigit
  match cs.drop whole.length with
  | [] => (digits? whole).map (fun n => .ok n)
  | '/' :: rest => do
    let n ← digits? whole
    let d ← digits? rest
    return if d = 0 then .error .zeroDivision else .ok ((n : ℚ) / d)
  | '.' :: rest => do
    let n ← digits? whole
    let f ← digits? rest
    return .ok (n + (f : ℚ) / 10 ^ rest.length)
  | _ => none

/-- `Fraction(text)` on ASCII text without exponents. -/
def fractionText (s : String) : Py ℚ :=
  let parsed := match (strip s).toList with
    | '-' :: cs => (unsigned cs).map (fun (r : Py ℚ) => (fun q => -q) <$> r)
    | '+' :: cs => unsigned cs
    | cs => unsigned cs
  parsed.getD (.error (.value ("Invalid literal for Fraction: '" ++ s ++ "'")))

def lowerAscii (s : String) : String :=
  String.ofList (s.toList.map (fun c => if c.isUpper then Char.ofNat (c.toNat + 32) else c))

/-- The runtime on ASCII text. A set is iterated from its first element. -/
def ascii : Runtime where
  casefold := lowerAscii
  fraction := fractionText
  hexdigest := fun v => Sha256.hexdigest (utf8 (Rfc8785.dumps v))
  nextStr := List.head?
  nextNat := List.head?
  nextStr_mem := fun _ _ h => List.mem_of_head? h
  nextStr_none := fun _ h => List.head?_eq_none_iff.mp h
  nextNat_mem := fun _ _ h => List.mem_of_head? h
  nextNat_none := fun _ h => List.head?_eq_none_iff.mp h

/-! ## Folding twice -/

theorem lower_lower (c : Char) :
    let lower (c : Char) := if c.isUpper then Char.ofNat (c.toNat + 32) else c
    lower (lower c) = lower c := by
  by_cases h : c.isUpper
  · have hrange : 65 ≤ c.toNat ∧ c.toNat ≤ 90 := by
      have hupper : decide (c.val ≥ 'A'.val ∧ c.val ≤ 'Z'.val) = true := h
      exact of_decide_eq_true hupper
    obtain ⟨hlow, hhigh⟩ := hrange
    rw [(Char.ofNat_toNat c).symm]
    generalize c.toNat = n at *
    interval_cases n <;> decide
  · simp [h]

theorem dropEnds_dropEnds (p : Char → Bool) (cs : List Char) :
    (((cs.dropWhile p).rdropWhile p).dropWhile p).rdropWhile p =
      (cs.dropWhile p).rdropWhile p := by
  have hfront : ((cs.dropWhile p).rdropWhile p).dropWhile p = (cs.dropWhile p).rdropWhile p := by
    refine List.dropWhile_eq_self_iff.mpr (fun hpos => ?_)
    have hpre := List.rdropWhile_prefix p (l := cs.dropWhile p)
    rw [hpre.getElem hpos]
    exact List.dropWhile_get_zero_not p cs (hpos.trans_le hpre.length_le)
  rw [hfront, List.rdropWhile_idempotent]

theorem fold_fold_ascii (s : String) : fold ascii (fold ascii s) = fold ascii s := by
  have hfixed : ∀ c ∈ ((lowerAscii s).toList.dropWhile isSpace).rdropWhile isSpace,
      (if c.isUpper then Char.ofNat (c.toNat + 32) else c) = c := by
    intro c hc
    have hmem : c ∈ (lowerAscii s).toList :=
      (List.dropWhile_suffix isSpace).subset ((List.rdropWhile_prefix isSpace _).subset hc)
    rw [lowerAscii, String.toList_ofList] at hmem
    obtain ⟨d, -, rfl⟩ := List.mem_map.mp hmem
    exact lower_lower d
  have hlower : lowerAscii (fold ascii s) = fold ascii s := by
    show String.ofList ((String.ofList
        (((lowerAscii s).toList.dropWhile isSpace).rdropWhile isSpace)).toList.map _) =
      String.ofList (((lowerAscii s).toList.dropWhile isSpace).rdropWhile isSpace)
    rw [String.toList_ofList, List.map_congr_left hfixed, List.map_id']
  show strip (lowerAscii (fold ascii s)) = fold ascii s
  rw [hlower]
  show String.ofList (((String.ofList _).toList.dropWhile isSpace).rdropWhile isSpace) =
    String.ofList _
  rw [String.toList_ofList]
  exact congrArg String.ofList (dropEnds_dropEnds isSpace _)

end Runtime

/-! ## Digests in identifiers -/

/-- The digits of a hexadecimal digest. -/
def hexDigits : List Char := "0123456789abcdef".toList

/-- Digests are written with 64 hexadecimal digits. -/
def HexDigests (rt : Runtime) : Prop :=
  ∀ v, (rt.hexdigest v).toList.length = 64 ∧ ∀ c ∈ (rt.hexdigest v).toList, c ∈ hexDigits

theorem digest20_sha256 (hex : String) :
    digest20 ("sha256:" ++ hex) = String.ofList (hex.toList.take 20) := by
  unfold digest20
  rw [String.toList_append]
  rfl

theorem isId_append_digest {rt : Runtime} (hhex : HexDigests rt) {v : Value} {hash start : String}
    (hhash : contentHash rt v = .ok hash) (hstart : isId start = true)
    (hshort : start.toList.length ≤ 108) : isId (start ++ digest20 hash) = true := by
  obtain ⟨-, rfl⟩ := contentHash_eq_ok.mp hhash
  have htail : ∀ c ∈ (rt.hexdigest v).toList.take 20, isIdTail c = true := by
    intro c hc
    have hdigit := (hhex v).2 c (List.mem_of_mem_take hc)
    have hall : hexDigits.all isIdTail = true := by decide
    exact List.all_eq_true.mp hall c hdigit
  have hlength : ((rt.hexdigest v).toList.take 20).length ≤ 20 := List.length_take_le 20 _
  rw [digest20_sha256]
  unfold isId at hstart ⊢
  rw [String.toList_append, String.toList_ofList]
  cases hcs : start.toList with
  | nil =>
    rw [hcs] at hstart
    cases hstart
  | cons c cs =>
    rw [hcs] at hstart hshort
    simp only [Bool.and_eq_true, decide_eq_true_eq] at hstart
    simp only [List.cons_append, Bool.and_eq_true, decide_eq_true_eq, List.all_append,
      List.length_append]
    refine ⟨⟨hstart.1.1, hstart.1.2, List.all_eq_true.mpr htail⟩, ?_⟩
    rw [List.length_cons] at hshort
    omega

theorem Sha256.hexWord_digits (n : Nat) : (Sha256.hexWord n).length = 8 ∧ ∀ c ∈ Sha256.hexWord n, c ∈ hexDigits := by
  constructor
  · simp [Sha256.hexWord]
  · intro c hc
    obtain ⟨i, -, rfl⟩ := List.mem_map.mp hc
    have hlt : n >>> (4 * (7 - i)) % 16 < 16 := Nat.mod_lt _ (by decide)
    have hall : ∀ d < 16, Nat.digitChar d ∈ hexDigits := by decide
    exact hall _ hlt

theorem hexDigests_ascii : HexDigests .ascii := by
  intro v
  show (String.ofList _).toList.length = 64 ∧ ∀ c ∈ (String.ofList _).toList, _
  rw [String.toList_ofList]
  constructor
  · simp [Sha256.State.words, Sha256.hexWord_digits]
  · intro c hc
    obtain ⟨word, -, hmem⟩ := List.mem_flatMap.mp hc
    exact (Sha256.hexWord_digits word).2 c hmem
end Domain
