-- SUMMARY: `json.dumps` and `json.loads` over all values that a JSON text denotes, and that the second reads back what the first writes.
import SiraSeil.Domain.JsonText
import SiraSeil.Library.Dict

/-!
# The `json` module

`json.dumps(value, sort_keys=True, separators=(",", ":"))` writes ASCII: other characters become
`\uXXXX` escapes, in surrogate pairs where UTF-16 needs two. `json.loads` joins such pairs again,
so no string of a value it returns has the two halves of a pair next to each other.
-/

namespace Domain

namespace PythonJson

open PyStr

/-! ## Floats -/

def digitText (digits : List (Fin 10)) : PyStr :=
  digits.map (fun d => Fin.ofNat 0x110000 (48 + d.val))

/-- The shortest text of a finite float, which has a point or an exponent -/
@[ext]
structure FloatText where
  negative : Bool
  whole : Nat
  fraction : List (Fin 10)
  exponent : Option (Bool × List (Fin 10))
  isFloat : fraction ≠ [] ∨ exponent ≠ none
  exponent_digits : ∀ e ∈ exponent, e.2 ≠ []

namespace FloatText

def fractionText (x : FloatText) : PyStr :=
  if x.fraction = [] then [] else code '.' :: digitText x.fraction

def exponentText (x : FloatText) : PyStr :=
  match x.exponent with
  | none => []
  | some (negative, digits) =>
    code 'e' :: (if negative then code '-' else code '+') :: digitText digits

def text (x : FloatText) : PyStr :=
  (if x.negative then [code '-'] else []) ++
    (JsonText.natText x.whole ++ (x.fractionText ++ x.exponentText))

end FloatText

/-- A float, of which only the text is used. Two floats with one text are the same number. -/
inductive PyFloat
  | nan
  | infinity (negative : Bool)
  | finite (text : FloatText)

/-- What `json.loads` returns -/
abbrev JsonValue := TypedJson PyFloat

/-! ## Writing -/

/-- The hexadecimal digit of a number below 16 -/
def hexDigit (n : Nat) : CodePoint :=
  Fin.ofNat 0x110000 (if n < 10 then 48 + n else 87 + n)

/-- `\uXXXX` -/
def unitText (u : Nat) : PyStr :=
  [code '\\', code 'u', hexDigit (u / 4096 % 16), hexDigit (u / 256 % 16), hexDigit (u / 16 % 16),
    hexDigit (u % 16)]

/-- The escape of a character that has one of two characters -/
def shortEscape (c : CodePoint) : Option CodePoint :=
  if c = code '"' then some (code '"')
  else if c = code '\\' then some (code '\\')
  else if c.val = 8 then some (code 'b')
  else if c.val = 9 then some (code 't')
  else if c.val = 10 then some (code 'n')
  else if c.val = 12 then some (code 'f')
  else if c.val = 13 then some (code 'r')
  else none

/-- `py_encode_basestring_ascii` on one character -/
def escape (c : CodePoint) : PyStr :=
  match shortEscape c with
  | some e => [code '\\', e]
  | none =>
    if 32 ≤ c.val ∧ c.val ≤ 126 then [c]
    else if c.val < 0x10000 then unitText c.val
    else unitText (0xD800 + (c.val - 0x10000) / 0x400) ++
      unitText (0xDC00 + (c.val - 0x10000) % 0x400)

def quoted (s : PyStr) : PyStr :=
  code '"' :: (s.flatMap escape ++ [code '"'])

def floatText : PyFloat → PyStr
  | .nan => ofChars ['N', 'a', 'N']
  | .infinity negative =>
    (if negative then [code '-'] else []) ++ ofChars ['I', 'n', 'f', 'i', 'n', 'i', 't', 'y']
  | .finite x => x.text

def leafText : Leaf PyFloat → PyStr
  | .null => ofChars ['n', 'u', 'l', 'l']
  | .bool true => ofChars ['t', 'r', 'u', 'e']
  | .bool false => ofChars ['f', 'a', 'l', 's', 'e']
  | .int n => JsonText.intText n
  | .str s => quoted s
  | .decimal x => floatText x

mutual
/-- The text of a value with its fields as they stand -/
def write : JsonValue → PyStr
  | .leaf a => leafText a
  | .seq [] => [code '[', code ']']
  | .seq (t :: items) => code '[' :: (write t ++ writeItems items)
  | .obj [] => [123, 125]
  | .obj ((k, t) :: fields) => 123 :: (quoted k ++ code ':' :: (write t ++ writeMembers fields))

/-- The other items, each after a comma, and the closing bracket -/
def writeItems : List JsonValue → PyStr
  | [] => [code ']']
  | t :: items => code ',' :: (write t ++ writeItems items)

def writeMembers : List (PyStr × JsonValue) → PyStr
  | [] => [125]
  | (k, t) :: fields => code ',' :: (quoted k ++ code ':' :: (write t ++ writeMembers fields))
end

/-- `json.dumps(value, sort_keys=True, separators=(",", ":"))` -/
def dumps (t : JsonValue) : PyStr := write t.sorted

/-! ## Reading -/

def isSpace (c : CodePoint) : Bool :=
  c.val == 32 || c.val == 9 || c.val == 10 || c.val == 13

def skip (text : PyStr) : PyStr := text.dropWhile isSpace

def hexValue (c : CodePoint) : Option Nat :=
  if 48 ≤ c.val ∧ c.val ≤ 57 then some (c.val - 48)
  else if 97 ≤ c.val ∧ c.val ≤ 102 then some (c.val - 87)
  else if 65 ≤ c.val ∧ c.val ≤ 70 then some (c.val - 55)
  else none

/-- The character that a backslash and `c` stand for -/
def unescape (c : CodePoint) : Option CodePoint :=
  if c = code '"' ∨ c = code '\\' ∨ c = code '/' then some c
  else if c = code 'b' then some 8
  else if c = code 't' then some 9
  else if c = code 'n' then some 10
  else if c = code 'f' then some 12
  else if c = code 'r' then some 13
  else none

/-- The code unit of four hexadecimal digits -/
def readUnit (a b c d : CodePoint) : Option CodePoint := do
  let a ← hexValue a
  let b ← hexValue b
  let c ← hexValue c
  let d ← hexValue d
  return Fin.ofNat 0x110000 (4096 * a + 256 * b + 16 * c + d)

/-- The characters up to the closing quote, with the halves of a pair apart -/
def readUnits : PyStr → Option (PyStr × PyStr)
  | [] => none
  | c :: r =>
    if c = code '"' then some ([], r)
    else if c = code '\\' then
      match r with
      | [] => none
      | e :: r =>
        if e = code 'u' then
          match r with
          | a :: b :: c :: d :: r =>
            match readUnit a b c d with
            | some u => (readUnits r).map (fun p => (u :: p.1, p.2))
            | none => none
          | _ => none
        else
          match unescape e with
          | some u => (readUnits r).map (fun p => (u :: p.1, p.2))
          | none => none
    else if c.val < 32 then none
    else (readUnits r).map (fun p => (c :: p.1, p.2))
termination_by structural text => text

def isHigh (c : CodePoint) : Bool := 0xD800 ≤ c.val && c.val ≤ 0xDBFF

def isLow (c : CodePoint) : Bool := 0xDC00 ≤ c.val && c.val ≤ 0xDFFF

/-- Surrogate pairs become the characters they stand for. A text in UTF-8 has surrogates in
    escapes only. -/
def join : PyStr → PyStr
  | [] => []
  | [c] => [c]
  | c :: d :: r =>
    if isHigh c && isLow d then
      Fin.ofNat 0x110000 (0x10000 + 0x400 * (c.val - 0xD800) + (d.val - 0xDC00)) :: join r
    else c :: join (d :: r)

/-- `scanstring`, behind the opening quote -/
def readString (text : PyStr) : Option (PyStr × PyStr) :=
  (readUnits text).map (fun p => (join p.1, p.2))

/-- The text after a word -/
def dropWord (word text : PyStr) : Option PyStr :=
  if word.isPrefixOf text then some (text.drop word.length) else none

/-- The parts of a number: its text up to the point, the fraction and the exponent -/
structure Scanned where
  whole : PyStr
  fraction : PyStr
  exponent : PyStr

def scanFraction : PyStr → PyStr
  | c :: r => if c = code '.' ∧ r.takeWhile JsonText.isDigit ≠ [] then
      c :: r.takeWhile JsonText.isDigit else []
  | [] => []

def scanExponent : PyStr → PyStr
  | c :: r =>
    if c = code 'e' ∨ c = code 'E' then
      let sign := match r with
        | s :: _ => if s = code '+' ∨ s = code '-' then [s] else []
        | [] => []
      let digits := (r.drop sign.length).takeWhile JsonText.isDigit
      if digits = [] then [] else c :: (sign ++ digits)
    else []
  | [] => []

def scanWhole (text : PyStr) : PyStr :=
  match text with
  | c :: _ => if c = code '0' then [c] else text.takeWhile JsonText.isDigit
  | [] => []

/-- The number at the start of a text without a sign -/
def scanNumber (text : PyStr) : Scanned :=
  let whole := scanWhole text
  let fraction := scanFraction (text.drop whole.length)
  ⟨whole, fraction, scanExponent (text.drop (whole.length + fraction.length))⟩

/-- The number that decimal digits denote -/
def natOf (digits : PyStr) : Nat :=
  digits.foldl (fun n c => 10 * n + (c.val - 48)) 0

/-- `_match_number`, with `float` for the texts that have a fraction or an exponent -/
def readNumber (float : PyStr → PyFloat) (text : PyStr) : Option (Leaf PyFloat × PyStr) :=
  let sign := if text.head? = some (code '-') then [code '-'] else []
  let unsigned := text.drop sign.length
  let scanned := scanNumber unsigned
  if scanned.whole = [] then none
  else
    let matched := scanned.whole ++ (scanned.fraction ++ scanned.exponent)
    let leaf : Leaf PyFloat :=
      if scanned.fraction = [] ∧ scanned.exponent = [] then
        .int (if sign = [] then natOf scanned.whole else -natOf scanned.whole)
      else .decimal (float (sign ++ matched))
    some (leaf, unsigned.drop matched.length)

/-- The constants, and numbers otherwise -/
def readLeaf (float : PyStr → PyFloat) (text : PyStr) : Option (Leaf PyFloat × PyStr) :=
  let constants : List (Leaf PyFloat) := [.null, .bool true, .bool false, .decimal .nan,
    .decimal (.infinity false), .decimal (.infinity true)]
  match constants.findSome? (fun a => (dropWord (leafText a) text).map (fun r => (a, r))) with
  | some found => some found
  | none => readNumber float text

mutual
/-- `scan_once`, with a bound on the depth and the number of steps -/
def readValue (float : PyStr → PyFloat) : Nat → PyStr → Option (JsonValue × PyStr)
  | 0, _ => none
  | _ + 1, [] => none
  | n + 1, c :: r =>
    if c = code '"' then (readString r).map (fun p => (.leaf (.str p.1), p.2))
    else if c = code '[' then
      match skip r with
      | [] => none
      | d :: r' => if d = code ']' then some (.seq [], r')
        else (readItems float n (d :: r')).map (fun p => (.seq p.1, p.2))
    else if c = 123 then
      match skip r with
      | [] => none
      | d :: r' => if d = 125 then some (.obj [], r')
        else (readMembers float n (d :: r')).map (fun p => (.obj (Dict.ofList p.1).items, p.2))
    else (readLeaf float (c :: r)).map (fun p => (.leaf p.1, p.2))

/-- At least one item, and the closing bracket -/
def readItems (float : PyStr → PyFloat) : Nat → PyStr → Option (List JsonValue × PyStr)
  | 0, _ => none
  | n + 1, text =>
    match readValue float n text with
    | none => none
    | some (t, r) =>
      match skip r with
      | [] => none
      | d :: r' =>
        if d = code ']' then some ([t], r')
        else if d = code ',' then
          (readItems float n (skip r')).map (fun p => (t :: p.1, p.2))
        else none

/-- At least one field, and the closing brace -/
def readMembers (float : PyStr → PyFloat) :
    Nat → PyStr → Option (List (PyStr × JsonValue) × PyStr)
  | 0, _ => none
  | _ + 1, [] => none
  | n + 1, c :: text =>
    if c = code '"' then
      match readString text with
      | none => none
      | some (k, r) =>
        match skip r with
        | [] => none
        | d :: r' =>
          if d = code ':' then
            match readValue float n (skip r') with
            | none => none
            | some (t, r) =>
              match skip r with
              | [] => none
              | d :: r' =>
                if d = 125 then some ([(k, t)], r')
                else if d = code ',' then
                  (readMembers float n (skip r')).map (fun p => ((k, t) :: p.1, p.2))
                else none
          else none
    else none
end

/-- `json.loads`; `none` stands for a `JSONDecodeError`. -/
def loads (float : PyStr → PyFloat) (text : PyStr) : Option JsonValue :=
  match readValue float (text.length + 1) (skip text) with
  | some (t, r) => if skip r = [] then some t else none
  | none => none

/-! ## Strings -/

/-- No half of a surrogate pair stands before the other, as in every string that was read. -/
def Whole (s : PyStr) : Prop := s.IsChain (fun c d => (isHigh c && isLow d) = false)

/-- The code units of a character -/
def units (c : CodePoint) : PyStr :=
  if c.val < 0x10000 then [c]
  else [Fin.ofNat 0x110000 (0xD800 + (c.val - 0x10000) / 0x400),
    Fin.ofNat 0x110000 (0xDC00 + (c.val - 0x10000) % 0x400)]

theorem hexValue_hexDigit : ∀ n < 16, hexValue (hexDigit n) = some n := by decide

theorem readUnits_quote (r : PyStr) : readUnits (code '"' :: r) = some ([], r) := by
  rw [readUnits.eq_def]
  exact if_pos rfl

variable {c : CodePoint} {r text : PyStr} {n : Nat} {digits : List (Fin 10)} {a : Leaf PyFloat}
  {fields : List (PyStr × JsonValue)} {t : JsonValue} {items : List JsonValue}

theorem readUnits_plain (hquote : c ≠ code '"') (hescape : c ≠ code '\\') (hprintable : 32 ≤ c.val)
    (r : PyStr) : readUnits (c :: r) = (readUnits r).map (fun p => (c :: p.1, p.2)) := by
  rw [readUnits.eq_def]
  dsimp only
  rw [if_neg hquote, if_neg hescape, if_neg (Nat.not_lt.mpr hprintable)]

theorem readUnits_short {e u : CodePoint} (he : e ≠ code 'u') (hu : unescape e = some u)
    (r : PyStr) : readUnits (code '\\' :: e :: r) =
      (readUnits r).map (fun p => (u :: p.1, p.2)) := by
  rw [readUnits.eq_def]
  dsimp only
  rw [if_neg (by decide), if_pos rfl, if_neg he, hu]

theorem readUnits_unitText {u : Nat} (hu : u < 0x10000) (r : PyStr) :
    readUnits (unitText u ++ r) =
      (readUnits r).map (fun p => (Fin.ofNat 0x110000 u :: p.1, p.2)) := by
  have hread : readUnit (hexDigit (u / 4096 % 16)) (hexDigit (u / 256 % 16))
      (hexDigit (u / 16 % 16)) (hexDigit (u % 16)) = some (Fin.ofNat 0x110000 u) := by
    unfold readUnit
    simp only [hexValue_hexDigit _ (Nat.mod_lt _ (by decide : 0 < 16)), Option.bind_eq_bind,
      Option.bind_some, Option.pure_def, Option.some.injEq]
    congr 1
    omega
  unfold unitText
  simp only [List.cons_append, List.nil_append]
  rw [readUnits.eq_def]
  dsimp only
  rw [if_neg (by decide), if_pos rfl, if_pos rfl, hread]

theorem unescape_shortEscape {e : CodePoint} (h : shortEscape c = some e) :
    e ≠ code 'u' ∧ unescape e = some c ∧ c.val < 0x10000 := by
  unfold shortEscape at h
  split_ifs at h with hquote hescape hback htab hline hform hreturn
  · cases h
    subst hquote
    decide
  · cases h
    subst hescape
    decide
  all_goals
    cases h
    obtain ⟨c, hc⟩ := c
    subst_vars
    exact ⟨by decide, rfl, Nat.le_of_ble_eq_true rfl⟩

theorem readUnits_escape (c : CodePoint) (r : PyStr) :
    readUnits (escape c ++ r) = (readUnits r).map (fun p => (units c ++ p.1, p.2)) := by
  unfold escape
  split
  next e he =>
    obtain ⟨hu, hread, hlt⟩ := unescape_shortEscape he
    unfold units
    rw [if_pos hlt]
    exact readUnits_short hu hread r
  next hnone =>
    have hquote : c ≠ code '"' := by
      rintro rfl
      exact absurd hnone (by decide)
    have hescape : c ≠ code '\\' := by
      rintro rfl
      exact absurd hnone (by decide)
    unfold units
    split
    next hprintable =>
      rw [if_pos (by omega)]
      exact readUnits_plain hquote hescape hprintable.1 r
    next =>
      split
      next hlt =>
        rw [readUnits_unitText hlt, Fin.ofNat_val_eq_self]
        rfl
      next hge =>
        have hc := c.isLt
        rw [List.append_assoc, readUnits_unitText (by omega), readUnits_unitText (by omega),
          Option.map_map]
        rfl

theorem readUnits_escaped (s r : PyStr) :
    readUnits (s.flatMap escape ++ code '"' :: r) = some (s.flatMap units, r) := by
  induction s with
  | nil => exact readUnits_quote r
  | cons c s ih =>
    rw [List.flatMap_cons, List.append_assoc, readUnits_escape, ih]
    rfl

theorem join_cons {d : CodePoint} (h : (isHigh c && isLow d) = false) (s : PyStr) :
    join (c :: d :: s) = c :: join (d :: s) := by
  rw [join, if_neg (by simp [h])]

theorem units_head (d : CodePoint) : ∃ u rest, units d = u :: rest ∧ (u = d ∨ isLow u = false) := by
  unfold units
  split
  · exact ⟨d, [], rfl, .inl rfl⟩
  next hge =>
    have hd := d.isLt
    refine ⟨_, _, rfl, .inr ?_⟩
    unfold isLow
    rw [Fin.val_ofNat]
    simp only [Bool.and_eq_false_iff, decide_eq_false_iff_not]
    omega

theorem join_pair (hc : 0x10000 ≤ c.val) (s : PyStr) : join (units c ++ s) = c :: join s := by
  have hlt := c.isLt
  unfold units
  rw [if_neg (Nat.not_lt.mpr hc)]
  simp only [List.cons_append, List.nil_append]
  rw [join, if_pos ?_]
  · refine congrArg (· :: join s) (Fin.ext ?_)
    simp only [Fin.val_ofNat]
    omega
  · unfold isHigh isLow
    simp only [Fin.val_ofNat, Bool.and_eq_true, decide_eq_true_eq]
    omega

theorem join_units : {s : PyStr} → Whole s → join (s.flatMap units) = s
  | [], _ => rfl
  | [c], _ => by
    rw [List.flatMap_singleton]
    by_cases hc : 0x10000 ≤ c.val
    · have hpair := join_pair hc []
      rw [List.append_nil] at hpair
      exact hpair
    · unfold units
      rw [if_pos (Nat.not_le.mp hc)]
      rfl
  | c :: d :: s, h => by
    obtain ⟨hfirst, hrest⟩ := List.isChain_cons_cons.mp h
    have ih := join_units hrest
    rw [List.flatMap_cons]
    by_cases hc : 0x10000 ≤ c.val
    · rw [join_pair hc, ih]
    · obtain ⟨u, rest, hu, hunit⟩ := units_head d
      have happart : (isHigh c && isLow u) = false := by
        rcases hunit with rfl | hlow
        · exact hfirst
        · rw [hlow, Bool.and_false]
      have hhead : (d :: s).flatMap units = u :: (rest ++ s.flatMap units) := by
        rw [List.flatMap_cons, hu, List.cons_append]
      have hone : units c = [c] := if_pos (Nat.not_le.mp hc)
      rw [hone, hhead, List.singleton_append, join_cons happart, ← hhead, ih]

theorem readString_escaped {s : PyStr} (h : Whole s) (r : PyStr) :
    readString (s.flatMap escape ++ code '"' :: r) = some (s, r) := by
  unfold readString
  rw [readUnits_escaped, Option.map_some, join_units h]

/-! ## Numbers -/

/-- What stands after a number does not go on it. -/
def Stops (r : PyStr) : Prop :=
  ∀ c ∈ r.head?, JsonText.isDigit c = false ∧ c ≠ code '.' ∧ c ≠ code 'e' ∧ c ≠ code 'E'

theorem stops_nil : Stops [] := nofun

theorem Stops.ends (h : Stops r) : JsonText.Ends r := fun c hc => (h c hc).1

theorem head_toDigits (hn : 0 < n) : (Nat.toDigits 10 n).head? ≠ some '0' := by
  induction n using Nat.strong_induction_on with
  | _ n ih =>
    by_cases hlt : n < 10
    · rw [Nat.toDigits_of_lt_base hlt]
      have hdigits : ∀ m < 10, 0 < m → [m.digitChar].head? ≠ some '0' := by decide
      exact hdigits n hlt hn
    · rw [Nat.toDigits_of_base_le (by decide) (Nat.not_lt.mp hlt),
        List.head?_append_of_ne_nil _ Nat.toDigits_ne_nil]
      exact ih (n / 10) (by omega) (by omega)

theorem scanWhole_natText (hr : JsonText.Ends r) :
    scanWhole (JsonText.natText n ++ r) = JsonText.natText n := by
  rcases Nat.eq_zero_or_pos n with rfl | hn
  · rfl
  · obtain ⟨c, rest, hc, -⟩ := JsonText.natText_head n
    have hne : c ≠ code '0' := by
      rintro rfl
      refine head_toDigits hn ?_
      unfold JsonText.natText ofChars at hc
      cases hdigits : Nat.toDigits 10 n with
      | nil => exact absurd hdigits Nat.toDigits_ne_nil
      | cons d digits =>
        rw [hdigits, List.map_cons] at hc
        rw [List.head?_cons, code_injective (List.cons.inj hc).1]
    have htake := JsonText.takeWhile_natText (n := n) hr
    rw [hc] at htake ⊢
    unfold scanWhole
    dsimp only [List.cons_append] at htake ⊢
    rw [if_neg hne, htake]

theorem natOf_natText (n : Nat) : natOf (JsonText.natText n) = n := by
  have hfold : ∀ (digits : List Char) (m : Nat),
      (ofChars digits).foldl (fun n c => 10 * n + (c.val - 48)) m = Nat.ofDigitChars 10 digits m := by
    intro digits
    induction digits with
    | nil => exact fun _ => rfl
    | cons c digits ih =>
      intro m
      unfold ofChars at ih ⊢
      rw [List.map_cons, List.foldl_cons, ih, code_val]
      rfl
  unfold natOf JsonText.natText
  rw [hfold, Nat.ofDigitChars_ten_toDigits]

theorem isDigit_digitText : ∀ c ∈ digitText digits, JsonText.isDigit c = true := by
  have hall : ∀ d : Fin 10, JsonText.isDigit (Fin.ofNat 0x110000 (48 + d.val)) = true := by decide
  intro c hc
  obtain ⟨d, -, rfl⟩ := List.mem_map.mp hc
  exact hall d

theorem takeWhile_digitText (hr : JsonText.Ends r) :
    (digitText digits ++ r).takeWhile JsonText.isDigit = digitText digits := by
  rw [List.takeWhile_append_of_pos isDigit_digitText]
  have hnil : r.takeWhile JsonText.isDigit = [] := by
    cases r with
    | nil => rfl
    | cons c r => simp [hr c rfl]
  rw [hnil, List.append_nil]

theorem digitText_eq_nil : digitText digits = [] ↔ digits = [] :=
  List.map_eq_nil_iff

theorem scanExponent_exponentText (x : FloatText) (hr : Stops r) :
    scanExponent (x.exponentText ++ r) = x.exponentText := by
  unfold FloatText.exponentText
  cases hexponent : x.exponent with
  | none =>
    cases r with
    | nil => rfl
    | cons c r =>
      obtain ⟨-, -, he, hE⟩ := hr c rfl
      simp [scanExponent, he, hE]
  | some exponent =>
    obtain ⟨negative, digits⟩ := exponent
    have hdigits : digitText digits ≠ [] := fun hnil =>
      x.exponent_digits (negative, digits) hexponent (digitText_eq_nil.mp hnil)
    cases negative
    all_goals
      simp only [scanExponent, List.cons_append, Bool.false_eq_true, if_false, if_true, true_or,
        or_true, List.length_cons, List.length_nil, List.drop_succ_cons, List.drop_zero,
        takeWhile_digitText hr.ends, hdigits, List.nil_append]

theorem ends_exponentText (x : FloatText) (hr : Stops r) : JsonText.Ends (x.exponentText ++ r) := by
  unfold FloatText.exponentText
  cases x.exponent with
  | none => exact hr.ends
  | some exponent => exact JsonText.ends_cons (by decide)

theorem scanFraction_fractionText (x : FloatText) (hr : Stops r) :
    scanFraction (x.fractionText ++ (x.exponentText ++ r)) = x.fractionText := by
  unfold FloatText.fractionText
  split
  · rw [List.nil_append]
    unfold FloatText.exponentText
    cases x.exponent with
    | none =>
      cases r with
      | nil => rfl
      | cons c r =>
        obtain ⟨-, hpoint, -⟩ := hr c rfl
        simp [scanFraction, hpoint]
    | some exponent =>
      have hne : code 'e' ≠ code '.' := by decide
      simp [scanFraction, hne]
  next hfraction =>
    have hdigits : digitText x.fraction ≠ [] := fun hnil => hfraction (digitText_eq_nil.mp hnil)
    rw [List.cons_append]
    unfold scanFraction
    dsimp only
    rw [takeWhile_digitText (ends_exponentText x hr), if_pos ⟨rfl, hdigits⟩]

theorem ends_fractionText (x : FloatText) (hr : Stops r) :
    JsonText.Ends (x.fractionText ++ (x.exponentText ++ r)) := by
  unfold FloatText.fractionText
  split
  · exact ends_exponentText x hr
  · exact JsonText.ends_cons (by decide)

theorem scanNumber_natText (n : Nat) (hr : Stops r) :
    scanNumber (JsonText.natText n ++ r) = ⟨JsonText.natText n, [], []⟩ := by
  have hfraction : scanFraction r = [] := by
    cases r with
    | nil => rfl
    | cons c r =>
      obtain ⟨-, hpoint, -⟩ := hr c rfl
      simp [scanFraction, hpoint]
  have hexponent : scanExponent r = [] := by
    cases r with
    | nil => rfl
    | cons c r =>
      obtain ⟨-, -, he, hE⟩ := hr c rfl
      simp [scanExponent, he, hE]
  unfold scanNumber
  dsimp only
  rw [scanWhole_natText hr.ends, List.drop_left, hfraction, List.length_nil, Nat.add_zero,
    List.drop_left, hexponent]

theorem scanNumber_float (x : FloatText) (hr : Stops r) :
    scanNumber (JsonText.natText x.whole ++ (x.fractionText ++ (x.exponentText ++ r))) =
      ⟨JsonText.natText x.whole, x.fractionText, x.exponentText⟩ := by
  unfold scanNumber
  dsimp only
  rw [scanWhole_natText (ends_fractionText x hr), List.drop_left, scanFraction_fractionText x hr,
    ← List.append_assoc (JsonText.natText x.whole), ← List.length_append, List.drop_left,
    scanExponent_exponentText x hr]

theorem natText_ne_nil (n : Nat) : JsonText.natText n ≠ [] := by
  obtain ⟨c, rest, hc, -⟩ := JsonText.natText_head n
  rw [hc]
  exact List.cons_ne_nil c rest

theorem head_natText_ne_minus (n : Nat) (r : PyStr) :
    (JsonText.natText n ++ r).head? ≠ some (code '-') := by
  obtain ⟨c, rest, hc, hdigit⟩ := JsonText.natText_head n
  rw [hc, List.cons_append, List.head?_cons]
  intro hminus
  obtain rfl := Option.some.inj hminus
  exact absurd hdigit (by decide)

theorem readNumber_intText (float : PyStr → PyFloat) (n : Int) (hr : Stops r) :
    readNumber float (JsonText.intText n ++ r) = some (.int n, r) := by
  unfold JsonText.intText
  split
  next hneg =>
    unfold readNumber
    simp only [List.cons_append, List.head?_cons, if_true, List.length_cons, List.length_nil,
      List.drop_succ_cons, List.drop_zero, scanNumber_natText _ hr, natText_ne_nil, if_false,
      List.append_nil, and_self, List.cons_ne_nil, natOf_natText, List.drop_left, Option.some.injEq,
      Prod.mk.injEq, Leaf.int.injEq, and_true]
    omega
  next hpos =>
    unfold readNumber
    simp only [head_natText_ne_minus, if_false, List.length_nil, List.drop_zero,
      scanNumber_natText _ hr, natText_ne_nil, List.append_nil, and_self, if_true, natOf_natText,
      List.drop_left, Option.some.injEq, Prod.mk.injEq, Leaf.int.injEq, and_true]
    omega

theorem FloatText.not_integral (x : FloatText) :
    ¬ (x.fractionText = [] ∧ x.exponentText = []) := by
  rintro ⟨hfraction, hexponent⟩
  unfold FloatText.fractionText at hfraction
  unfold FloatText.exponentText at hexponent
  split at hfraction
  next hnil =>
    split at hexponent
    next hnone => exact x.isFloat.elim (fun h => h hnil) (fun h => h hnone)
    next => cases hexponent
  next => cases hfraction

theorem readNumber_float {float : PyStr → PyFloat}
    (hfloat : ∀ x : FloatText, float x.text = .finite x) (x : FloatText)
    (hr : Stops r) : readNumber float (x.text ++ r) = some (.decimal (.finite x), r) := by
  have hread := hfloat x
  have hdrop : (JsonText.natText x.whole ++ (x.fractionText ++ (x.exponentText ++ r))).drop
      (JsonText.natText x.whole ++ (x.fractionText ++ x.exponentText)).length = r := by
    have hassoc : JsonText.natText x.whole ++ (x.fractionText ++ (x.exponentText ++ r)) =
        (JsonText.natText x.whole ++ (x.fractionText ++ x.exponentText)) ++ r := by
      simp only [List.append_assoc]
    rw [hassoc, List.drop_left]
  unfold FloatText.text at hread ⊢
  unfold readNumber
  cases hnegative : x.negative with
  | true =>
    rw [hnegative] at hread
    simp only [if_true, List.cons_append, List.nil_append, List.append_assoc] at hread ⊢
    simp only [List.head?_cons, if_true, List.length_cons, List.length_nil, List.drop_succ_cons,
      List.drop_zero, scanNumber_float x hr, natText_ne_nil, if_false, x.not_integral, hdrop,
      List.cons_append, List.nil_append, hread]
  | false =>
    rw [hnegative] at hread
    simp only [Bool.false_eq_true, if_false, List.nil_append, List.append_assoc] at hread ⊢
    simp only [head_natText_ne_minus, if_false, List.length_nil, List.drop_zero,
      scanNumber_float x hr, natText_ne_nil, x.not_integral, hdrop, List.nil_append, hread]

/-! ## Leaves -/

/-- The text starts with a digit, or with a minus and a digit. -/
def Numeric : PyStr → Prop
  | [] => False
  | c :: r => JsonText.isDigit c = true ∨ c = code '-' ∧ ∃ d ∈ r.head?, JsonText.isDigit d = true

theorem numeric_natText (n : Nat) (r : PyStr) : Numeric (JsonText.natText n ++ r) := by
  obtain ⟨c, tail, hc, hdigit⟩ := JsonText.natText_head n
  rw [hc]
  exact .inl hdigit

theorem numeric_minus (n : Nat) (r : PyStr) :
    Numeric (code '-' :: (JsonText.natText n ++ r)) := by
  obtain ⟨c, tail, hc, hdigit⟩ := JsonText.natText_head n
  rw [hc]
  exact .inr ⟨rfl, c, rfl, hdigit⟩

theorem numeric_intText (n : Int) (r : PyStr) : Numeric (JsonText.intText n ++ r) := by
  unfold JsonText.intText
  split
  · exact numeric_minus _ _
  · exact numeric_natText _ _

theorem numeric_float (x : FloatText) (r : PyStr) : Numeric (x.text ++ r) := by
  unfold FloatText.text
  cases x.negative
  · simp only [Bool.false_eq_true, if_false, List.nil_append, List.append_assoc]
    exact numeric_natText _ _
  · simp only [if_true, List.cons_append, List.nil_append, List.append_assoc]
    exact numeric_minus _ _

theorem dropWord_eq_none {w : CodePoint} {word : PyStr} (h : w ≠ c) :
    dropWord (w :: word) (c :: text) = none := by
  unfold dropWord
  rw [if_neg]
  simp [List.isPrefixOf, h]

theorem ne_of_isDigit {w : CodePoint} (hc : JsonText.isDigit c = true)
    (hw : JsonText.isDigit w = false) : w ≠ c := by
  rintro rfl
  rw [hc] at hw
  cases hw

theorem readLeaf_of_numeric (float : PyStr → PyFloat) (h : Numeric text) :
    readLeaf float text = readNumber float text := by
  have hword : ∀ w word, JsonText.isDigit w = false → w ≠ code '-' →
      dropWord (w :: word) text = none := by
    intro w word hw hminus
    cases text with
    | nil => exact h.elim
    | cons c r =>
      rcases h with hdigit | ⟨rfl, -⟩
      · exact dropWord_eq_none (ne_of_isDigit hdigit hw)
      · exact dropWord_eq_none hminus
  have hminus : dropWord (leafText (.decimal (.infinity true))) text = none := by
    cases text with
    | nil => exact h.elim
    | cons c r =>
      rcases h with hdigit | ⟨rfl, d, hd, hdigit⟩
      · exact dropWord_eq_none (ne_of_isDigit hdigit (by decide))
      · cases r with
        | nil => cases hd
        | cons d' r =>
          cases hd
          have hne : code 'I' ≠ d := ne_of_isDigit hdigit (by decide)
          unfold dropWord
          rw [if_neg]
          simp [leafText, floatText, ofChars, List.isPrefixOf, hne]
  unfold readLeaf
  dsimp only
  rw [List.findSome?_eq_none_iff.mpr]
  intro a ha
  simp only [List.mem_cons, List.not_mem_nil, or_false] at ha
  rw [Option.map_eq_none_iff]
  rcases ha with rfl | rfl | rfl | rfl | rfl | rfl
  · exact hword _ _ (by decide) (by decide)
  · exact hword _ _ (by decide) (by decide)
  · exact hword _ _ (by decide) (by decide)
  · exact hword _ _ (by decide) (by decide)
  · exact hword _ _ (by decide) (by decide)
  · exact hminus

theorem readLeaf_leafText {float : PyStr → PyFloat}
    (hfloat : ∀ x : FloatText, float x.text = .finite x) (a : Leaf PyFloat) (ha : a.kind ≠ .str)
    (hr : Stops r) : readLeaf float (leafText a ++ r) = some (a, r) := by
  cases a with
  | null => rfl
  | bool b => cases b <;> rfl
  | int n =>
    exact (readLeaf_of_numeric float (numeric_intText n r)).trans (readNumber_intText float n hr)
  | str s => exact absurd rfl ha
  | decimal x =>
    cases x with
    | nan => rfl
    | infinity negative => cases negative <;> rfl
    | finite x =>
      exact (readLeaf_of_numeric float (numeric_float x r)).trans (readNumber_float hfloat x hr)

/-- The characters that tell a leaf from a string, a sequence or an object -/
def OpensLeaf (c : CodePoint) : Prop :=
  isSpace c = false ∧ c ≠ code '"' ∧ c ≠ code '[' ∧ c ≠ 123 ∧ c ≠ code ']' ∧ c ≠ 125

instance (c : CodePoint) : Decidable (OpensLeaf c) := inferInstanceAs (Decidable (_ ∧ _))

theorem opensLeaf_of_isDigit (h : JsonText.isDigit c = true) : OpensLeaf c := by
  have hne : ∀ w, JsonText.isDigit w = false → c ≠ w := fun w hw => (ne_of_isDigit h hw).symm
  refine ⟨?_, hne _ (by decide), hne _ (by decide), hne _ (by decide), hne _ (by decide),
    hne _ (by decide)⟩
  unfold JsonText.isDigit at h
  unfold isSpace
  simp only [Bool.and_eq_true, decide_eq_true_eq, Bool.or_eq_false_iff, beq_eq_false_iff_ne] at h ⊢
  omega

theorem opensLeaf_of_numeric (h : Numeric text) : ∃ c rest, text = c :: rest ∧ OpensLeaf c := by
  cases text with
  | nil => exact h.elim
  | cons c r =>
    refine ⟨c, r, rfl, ?_⟩
    rcases h with hdigit | ⟨rfl, -⟩
    · exact opensLeaf_of_isDigit hdigit
    · decide

theorem leafText_head (ha : a.kind ≠ .str) : ∃ c rest, leafText a = c :: rest ∧ OpensLeaf c := by
  cases a with
  | null => exact ⟨code 'n', _, rfl, by decide⟩
  | bool b =>
    cases b with
    | false => exact ⟨code 'f', _, rfl, by decide⟩
    | true => exact ⟨code 't', _, rfl, by decide⟩
  | int n =>
    have hnumeric := numeric_intText n []
    rw [List.append_nil] at hnumeric
    exact opensLeaf_of_numeric hnumeric
  | str s => exact absurd rfl ha
  | decimal x =>
    cases x with
    | nan => exact ⟨code 'N', _, rfl, by decide⟩
    | infinity negative =>
      cases negative with
      | false => exact ⟨code 'I', _, rfl, by decide⟩
      | true => exact ⟨code '-', _, rfl, by decide⟩
    | finite x =>
      have hnumeric := numeric_float x []
      rw [List.append_nil] at hnumeric
      exact opensLeaf_of_numeric hnumeric

/-! ## Values -/

/-- All strings of the value, and all its keys, are such as are read from a text. -/
def Loaded (t : JsonValue) : Prop :=
  (∀ s, .str s ∈ t.leaves → Whole s) ∧ ∀ k ∈ t.keys, Whole k

theorem write_head (t : JsonValue) : ∃ c rest, write t = c :: rest ∧ isSpace c = false ∧
    c ≠ code ']' ∧ c ≠ 125 := by
  cases t with
  | leaf a =>
    by_cases ha : a.kind = .str
    · cases a with
      | str s => exact ⟨code '"', _, rfl, by decide, by decide, by decide⟩
      | _ => cases ha
    · obtain ⟨c, rest, hc, hspace, -, -, -, hclose, hbrace⟩ := leafText_head ha
      exact ⟨c, rest, hc, hspace, hclose, hbrace⟩
  | seq items => cases items <;> exact ⟨code '[', _, rfl, by decide, by decide, by decide⟩
  | obj fields => cases fields <;> exact ⟨123, _, rfl, by decide, by decide, by decide⟩

theorem skip_cons (h : isSpace c = false) (r : PyStr) : skip (c :: r) = c :: r := by
  unfold skip
  rw [List.dropWhile_cons_of_neg (by simp [h])]

theorem skip_write (t : JsonValue) (r : PyStr) : skip (write t ++ r) = write t ++ r := by
  obtain ⟨c, rest, hc, hspace, -⟩ := write_head t
  rw [hc]
  exact skip_cons hspace _

theorem stops_cons (h : JsonText.isDigit c = false ∧ c ≠ code '.' ∧ c ≠ code 'e' ∧ c ≠ code 'E')
    (r : PyStr) : Stops (c :: r) := by
  rintro d hd
  cases hd
  exact h

theorem stops_writeItems (items : List JsonValue) (r : PyStr) : Stops (writeItems items ++ r) := by
  cases items <;> exact stops_cons (by decide) _

theorem stops_writeMembers (fields : List (PyStr × JsonValue)) (r : PyStr) :
    Stops (writeMembers fields ++ r) := by
  cases fields with
  | nil => exact stops_cons (by decide) _
  | cons p fields => exact stops_cons (by decide) _

/-! ## What is read -/

theorem head_join (d : CodePoint) (r : PyStr) :
    ∃ u rest, join (d :: r) = u :: rest ∧ (isLow u = true → u = d) := by
  cases r with
  | nil => exact ⟨d, [], rfl, fun _ => rfl⟩
  | cons e r =>
    rw [join]
    split
    next hpair =>
      refine ⟨_, _, rfl, fun hlow => ?_⟩
      simp only [isHigh, isLow, Bool.and_eq_true, decide_eq_true_eq] at hpair hlow
      have hval := Fin.val_ofNat (n := 0x110000)
        (a := 0x10000 + 0x400 * (d.val - 0xD800) + (e.val - 0xDC00))
      omega
    · exact ⟨d, _, rfl, fun _ => rfl⟩

theorem whole_join (s : PyStr) : Whole (join s) := by
  fun_induction join s with
  | case1 => exact .nil
  | case2 c => exact .singleton c
  | case3 c d r hpair ih =>
    cases hrest : join r with
    | nil => exact .singleton _
    | cons u rest =>
      rw [hrest] at ih
      refine List.isChain_cons_cons.mpr ⟨?_, ih⟩
      simp only [isHigh, isLow, Bool.and_eq_true, decide_eq_true_eq] at hpair
      have hval := Fin.val_ofNat (n := 0x110000)
        (a := 0x10000 + 0x400 * (c.val - 0xD800) + (d.val - 0xDC00))
      have hhigh : isHigh (Fin.ofNat 0x110000
          (0x10000 + 0x400 * (c.val - 0xD800) + (d.val - 0xDC00))) = false := by
        simp only [isHigh, Bool.and_eq_false_iff, decide_eq_false_iff_not]
        omega
      rw [hhigh, Bool.false_and]
  | case4 c d r hpair ih =>
    obtain ⟨u, rest, hjoin, hlow⟩ := head_join d r
    rw [hjoin] at ih ⊢
    refine List.isChain_cons_cons.mpr ⟨?_, ih⟩
    cases hu : isLow u with
    | false => exact Bool.and_false _
    | true =>
      rw [hlow hu] at hu
      rw [← hu]
      exact Bool.eq_false_iff.mpr hpair

theorem loaded_obj_iff : Loaded (.obj fields) ↔ ∀ p ∈ fields, Whole p.1 ∧ Loaded p.2 := by
  simp only [Loaded, KeyedTree.leaves, KeyedTree.keys, KeyedTree.mem_fieldLeaves,
    KeyedTree.mem_fieldKeys]
  constructor
  · rintro ⟨hleaves, hkeys⟩ p hp
    exact ⟨hkeys _ ⟨p, hp, .inl rfl⟩, fun s hs => hleaves s ⟨p, hp, hs⟩,
      fun k hk => hkeys k ⟨p, hp, .inr hk⟩⟩
  · intro h
    refine ⟨fun s hs => ?_, fun k hk => ?_⟩
    · obtain ⟨p, hp, hs⟩ := hs
      exact (h p hp).2.1 s hs
    · obtain ⟨p, hp, rfl | hk⟩ := hk
      · exact (h p hp).1
      · exact (h p hp).2.2 k hk

theorem loaded_seq_cons (h : Loaded (.seq (t :: items))) : Loaded t ∧ Loaded (.seq items) := by
  simp only [Loaded, KeyedTree.leaves, KeyedTree.seqLeaves, KeyedTree.keys, KeyedTree.seqKeys,
    List.mem_append] at h ⊢
  exact ⟨⟨fun s hs => h.1 s (.inl hs), fun k hk => h.2 k (.inl hk)⟩,
    fun s hs => h.1 s (.inr hs), fun k hk => h.2 k (.inr hk)⟩

theorem loaded_obj_cons {k : PyStr}
    (h : Loaded (.obj ((k, t) :: fields))) : Whole k ∧ Loaded t ∧ Loaded (.obj fields) := by
  obtain ⟨hfirst, hfields⟩ := List.forall_mem_cons.mp (loaded_obj_iff.mp h)
  exact ⟨hfirst.1, hfirst.2, loaded_obj_iff.mpr hfields⟩

/-- A value as it comes from a text -/
structure OfText (t : JsonValue) : Prop where
  loaded : Loaded t
  distinct : t.Distinct

theorem ofText_leaf (h : ∀ s, a = .str s → Whole s) : OfText (.leaf a) :=
  ⟨⟨fun s hs => h s (List.mem_singleton.mp hs).symm, nofun⟩, trivial⟩

theorem ofText_seq_iff : OfText (.seq items) ↔ ∀ t ∈ items, OfText t := by
  induction items with
  | nil => exact ⟨fun _ => nofun, fun _ => ⟨⟨nofun, nofun⟩, trivial⟩⟩
  | cons t items ih =>
    rw [List.forall_mem_cons, ← ih]
    constructor
    · rintro ⟨hloaded, ht, hitems⟩
      obtain ⟨htl, hitemsl⟩ := loaded_seq_cons hloaded
      exact ⟨⟨htl, ht⟩, hitemsl, hitems⟩
    · rintro ⟨⟨htl, ht⟩, hitemsl, hitems⟩
      refine ⟨⟨fun s hs => ?_, fun k hk => ?_⟩, ht, hitems⟩
      · exact (List.mem_append.mp hs).elim (htl.1 s) (hitemsl.1 s)
      · exact (List.mem_append.mp hk).elim (htl.2 k) (hitemsl.2 k)

theorem ofText_obj_iff :
    OfText (.obj fields) ↔
      (fields.map Prod.fst).Nodup ∧ ∀ p ∈ fields, Whole p.1 ∧ OfText p.2 := by
  constructor
  · rintro ⟨hloaded, hnodup, hfields⟩
    refine ⟨hnodup, fun p hp => ?_⟩
    obtain ⟨hkey, hvalue⟩ := loaded_obj_iff.mp hloaded p hp
    exact ⟨hkey, hvalue, KeyedTree.distinctFields_iff.mp hfields p hp⟩
  · rintro ⟨hnodup, hfields⟩
    exact ⟨loaded_obj_iff.mpr fun p hp => ⟨(hfields p hp).1, (hfields p hp).2.loaded⟩, hnodup,
      KeyedTree.distinctFields_iff.mpr fun p hp => (hfields p hp).2.distinct⟩

theorem whole_of_readString {s : PyStr} (h : readString text = some (s, r)) : Whole s := by
  obtain ⟨⟨u, r'⟩, -, hp⟩ := Option.map_eq_some_iff.mp h
  cases hp
  exact whole_join u

theorem mem_of_mem_ofList {l : List (PyStr × JsonValue)} {p : PyStr × JsonValue}
    (h : p ∈ (Dict.ofList l).items) : p ∈ l :=
  Dict.mem_of_get?_ofList (Dict.get?_eq_some_iff.mpr h)

/-- What one step of the reader makes of texts whose parts are read -/
structure Reads (float : PyStr → PyFloat) (n : Nat) : Prop where
  value : ∀ {text t r}, readValue float n text = some (t, r) → OfText t
  items : ∀ {text items r}, readItems float n text = some (items, r) → ∀ t ∈ items, OfText t
  members : ∀ {text fields r}, readMembers float n text = some (fields, r) →
    ∀ p ∈ fields, Whole p.1 ∧ OfText p.2

theorem readLeaf_ne_str {float : PyStr → PyFloat} (h : readLeaf float text = some (a, r))
    (s : PyStr) : a ≠ .str s := by
  unfold readLeaf at h
  dsimp only at h
  split at h
  next found hfound =>
    cases h
    obtain ⟨b, hb, hword⟩ := List.exists_of_findSome?_eq_some hfound
    obtain ⟨r', -, hr⟩ := Option.map_eq_some_iff.mp hword
    cases hr
    simp only [List.mem_cons, List.not_mem_nil, or_false] at hb
    rcases hb with rfl | rfl | rfl | rfl | rfl | rfl <;> rintro ⟨⟩
  next =>
    unfold readNumber at h
    dsimp only at h
    rw [Option.ite_none_left_eq_some] at h
    obtain ⟨-, hsome⟩ := h
    cases hsome
    split_ifs <;> rintro ⟨⟩

theorem readValue_ofText {float : PyStr → PyFloat} (ih : Reads float n)
    (h : readValue float (n + 1) text = some (t, r)) : OfText t := by
  cases text with
  | nil => cases h
  | cons c text =>
    rw [readValue] at h
    split_ifs at h with hquote hbracket hbrace
    · obtain ⟨⟨s, r'⟩, hread, hp⟩ := Option.map_eq_some_iff.mp h
      cases hp
      exact ofText_leaf fun s' hs => by cases hs; exact whole_of_readString hread
    · split at h
      · cases h
      split_ifs at h
      · cases h
        exact ofText_seq_iff.mpr nofun
      · obtain ⟨⟨items, r'⟩, hread, hp⟩ := Option.map_eq_some_iff.mp h
        cases hp
        exact ofText_seq_iff.mpr (ih.items hread)
    · split at h
      · cases h
      split_ifs at h
      · cases h
        exact ofText_obj_iff.mpr ⟨List.nodup_nil, nofun⟩
      · obtain ⟨⟨fields, r'⟩, hread, hp⟩ := Option.map_eq_some_iff.mp h
        cases hp
        exact ofText_obj_iff.mpr ⟨(Dict.ofList fields).nodup,
          fun p hp => ih.members hread p (mem_of_mem_ofList hp)⟩
    · obtain ⟨⟨a, r'⟩, hread, hp⟩ := Option.map_eq_some_iff.mp h
      cases hp
      exact ofText_leaf fun s hs => absurd hs (readLeaf_ne_str hread s)

theorem readItems_ofText {float : PyStr → PyFloat} (ih : Reads float n)
    (h : readItems float (n + 1) text = some (items, r)) : ∀ t ∈ items, OfText t := by
  rw [readItems] at h
  split at h
  · cases h
  next t r' hvalue =>
    split at h
    · cases h
    split_ifs at h
    · cases h
      exact List.forall_mem_singleton.mpr (ih.value hvalue)
    · obtain ⟨⟨rest, r'⟩, hread, hp⟩ := Option.map_eq_some_iff.mp h
      cases hp
      exact List.forall_mem_cons.mpr ⟨ih.value hvalue, ih.items hread⟩

theorem readMembers_ofText {float : PyStr → PyFloat} (ih : Reads float n)
    (h : readMembers float (n + 1) text = some (fields, r)) :
    ∀ p ∈ fields, Whole p.1 ∧ OfText p.2 := by
  cases text with
  | nil => cases h
  | cons c text =>
    rw [readMembers] at h
    split_ifs at h
    split at h
    · cases h
    next k r₁ hkey =>
    split at h
    · cases h
    split_ifs at h
    split at h
    · cases h
    next t r₂ hvalue =>
    have hfirst : Whole k ∧ OfText t := ⟨whole_of_readString hkey, ih.value hvalue⟩
    split at h
    · cases h
    split_ifs at h
    · cases h
      exact List.forall_mem_singleton.mpr hfirst
    · obtain ⟨⟨rest, r'⟩, hread, hp⟩ := Option.map_eq_some_iff.mp h
      cases hp
      exact List.forall_mem_cons.mpr ⟨hfirst, ih.members hread⟩

theorem reads (float : PyStr → PyFloat) (n : Nat) : Reads float n := by
  induction n with
  | zero => exact ⟨fun h => (nomatch h), fun h => (nomatch h), fun h => (nomatch h)⟩
  | succ n ih => exact ⟨readValue_ofText ih, readItems_ofText ih, readMembers_ofText ih⟩

theorem loads_ofText {float : PyStr → PyFloat} (h : loads float text = some t) : OfText t := by
  unfold loads at h
  split at h
  next t' r hread =>
    split_ifs at h
    cases h
    exact (reads float _).value hread
  next => cases h

/-! ## Reading back -/

mutual
/-- The number of steps that reading a value takes -/
def size : JsonValue → Nat
  | .leaf _ => 1
  | .seq items => 1 + sizeItems items
  | .obj fields => 1 + sizeFields fields

def sizeItems : List JsonValue → Nat
  | [] => 0
  | t :: items => 1 + size t + sizeItems items

def sizeFields : List (PyStr × JsonValue) → Nat
  | [] => 0
  | (_, t) :: fields => 1 + size t + sizeFields fields
end

mutual
theorem size_le_length : (t : JsonValue) → size t ≤ (write t).length
  | .leaf a => by
    obtain ⟨c, rest, hc, -⟩ := write_head (.leaf a)
    rw [hc]
    simp [size]
  | .seq [] => by simp [size, sizeItems, write]
  | .seq (t :: items) => by
    have ht := size_le_length t
    have hitems := sizeItems_le_length items
    simp only [size, sizeItems, write, List.length_cons, List.length_append]
    omega
  | .obj [] => by simp [size, sizeFields, write]
  | .obj ((k, t) :: fields) => by
    have ht := size_le_length t
    have hfields := sizeFields_le_length fields
    simp only [size, sizeFields, write, List.length_cons, List.length_append]
    omega

theorem sizeItems_le_length : (items : List JsonValue) →
    sizeItems items < (writeItems items).length
  | [] => by simp [sizeItems, writeItems]
  | t :: items => by
    have ht := size_le_length t
    have hitems := sizeItems_le_length items
    simp only [sizeItems, writeItems, List.length_cons, List.length_append]
    omega

theorem sizeFields_le_length : (fields : List (PyStr × JsonValue)) →
    sizeFields fields < (writeMembers fields).length
  | [] => by simp [sizeFields, writeMembers]
  | (k, t) :: fields => by
    have ht := size_le_length t
    have hfields := sizeFields_le_length fields
    simp only [sizeFields, writeMembers, List.length_cons, List.length_append]
    omega
end

/-- The items of a sequence with its closing bracket -/
def writeSeq : List JsonValue → PyStr
  | [] => [code ']']
  | t :: items => write t ++ writeItems items

/-- The fields of an object with its closing brace -/
def writeFields : List (PyStr × JsonValue) → PyStr
  | [] => [125]
  | (k, t) :: fields => quoted k ++ code ':' :: (write t ++ writeMembers fields)

section Reading

variable {float : PyStr → PyFloat} (hfloat : ∀ x : FloatText, float x.text = .finite x)

include hfloat

theorem readValue_leaf {a : Leaf PyFloat} (n : Nat) {r : PyStr} (hr : Stops r)
    (hloaded : Loaded (.leaf a)) :
    readValue float (n + 1) (leafText a ++ r) = some (.leaf a, r) := by
  by_cases ha : a.kind = .str
  · cases a with
    | str s =>
      have hwhole : Whole s := hloaded.1 s (List.mem_singleton_self _)
      simp only [leafText, quoted, List.cons_append, List.append_assoc, List.nil_append]
      rw [readValue, if_pos rfl, readString_escaped hwhole]
      rfl
    | _ => cases ha
  · obtain ⟨c, rest, hc, -, hquote, hbracket, hbrace, -⟩ := leafText_head ha
    have hread := readLeaf_leafText hfloat a ha hr
    rw [hc, List.cons_append] at hread ⊢
    rw [readValue, if_neg hquote, if_neg hbracket, if_neg hbrace, hread]
    rfl

set_option linter.unusedSectionVars false in
mutual
theorem readValue_write : (t : JsonValue) → (n : Nat) → (r : PyStr) → size t ≤ n → Stops r →
    Loaded t → t.Distinct → readValue float n (write t ++ r) = some (t, r)
  | t, 0, _, hn, _, _, _ => absurd hn (by cases t <;> simp [size])
  | .leaf a, n + 1, r, _, hr, hloaded, _ => readValue_leaf hfloat n hr hloaded
  | .seq [], n + 1, r, _, _, _, _ => by
    simp only [write, List.cons_append, List.nil_append]
    rw [readValue, if_neg (by decide), if_pos rfl, skip_cons (by decide)]
    rfl
  | .seq (t :: items), n + 1, r, hn, _, hloaded, hdistinct => by
    simp only [size] at hn
    have hitems := readItems_write (t :: items) n r (by omega) (List.cons_ne_nil _ _) hloaded
      hdistinct
    obtain ⟨c, rest, hc, hspace, hclose, -⟩ := write_head t
    simp only [write, writeSeq, List.cons_append, List.append_assoc] at hitems ⊢
    rw [hc, List.cons_append] at hitems ⊢
    rw [readValue, if_neg (by decide), if_pos rfl, skip_cons hspace]
    dsimp only
    rw [if_neg hclose, hitems]
    rfl
  | .obj [], n + 1, r, _, _, _, _ => by
    simp only [write, List.cons_append, List.nil_append]
    rw [readValue, if_neg (by decide), if_neg (by decide), if_pos rfl, skip_cons (by decide)]
    rfl
  | .obj ((k, t) :: fields), n + 1, r, hn, _, hloaded, hdistinct => by
    simp only [size] at hn
    have hfields := readMembers_write ((k, t) :: fields) n r (by omega) (List.cons_ne_nil _ _)
      hloaded hdistinct.2
    simp only [write, writeFields, quoted, List.cons_append, List.append_assoc, List.nil_append]
      at hfields ⊢
    rw [readValue, if_neg (by decide), if_neg (by decide), if_pos rfl, skip_cons (by decide)]
    dsimp only
    rw [if_neg (by decide), hfields, Option.map_some, Dict.items_ofList_of_nodup hdistinct.1]

theorem readItems_write : (items : List JsonValue) → (n : Nat) → (r : PyStr) →
    sizeItems items ≤ n → items ≠ [] → Loaded (.seq items) → KeyedTree.DistinctSeq items →
      readItems float n (writeSeq items ++ r) = some (items, r)
  | [], _, _, _, hne, _, _ => absurd rfl hne
  | t :: items, 0, _, hn, _, _, _ => absurd hn (by simp [sizeItems])
  | [t], n + 1, r, hn, _, hloaded, hdistinct => by
    simp only [sizeItems] at hn
    have ht := readValue_write t n (code ']' :: r) (by omega) (stops_cons (by decide) r)
      (loaded_seq_cons hloaded).1 hdistinct.1
    simp only [writeSeq, writeItems, List.append_assoc, List.cons_append, List.nil_append]
    rw [readItems, ht]
    dsimp only
    rw [skip_cons (by decide)]
    dsimp only
    rw [if_pos rfl]
  | t :: u :: items, n + 1, r, hn, _, hloaded, hdistinct => by
    simp only [sizeItems] at hn
    have ht := readValue_write t n (writeItems (u :: items) ++ r) (by omega)
      (stops_writeItems _ r) (loaded_seq_cons hloaded).1 hdistinct.1
    have hrest := readItems_write (u :: items) n r (by simp only [sizeItems]; omega)
      (List.cons_ne_nil _ _) (loaded_seq_cons hloaded).2 hdistinct.2
    simp only [writeSeq, List.append_assoc] at hrest ⊢
    rw [readItems, ht]
    simp only [writeItems, List.cons_append, List.append_assoc]
    rw [skip_cons (by decide)]
    dsimp only
    rw [if_neg (by decide), if_pos rfl, skip_write, hrest]
    rfl

theorem readMembers_write : (fields : List (PyStr × JsonValue)) → (n : Nat) → (r : PyStr) →
    sizeFields fields ≤ n → fields ≠ [] → Loaded (.obj fields) →
      KeyedTree.DistinctFields fields →
        readMembers float n (writeFields fields ++ r) = some (fields, r)
  | [], _, _, _, hne, _, _ => absurd rfl hne
  | _ :: fields, 0, _, hn, _, _, _ => absurd hn (by simp [sizeFields])
  | [(k, t)], n + 1, r, hn, _, hloaded, hdistinct => by
    simp only [sizeFields] at hn
    obtain ⟨hk, hloaded, -⟩ := loaded_obj_cons hloaded
    have ht := readValue_write t n (125 :: r) (by omega) (stops_cons (by decide) r) hloaded
      hdistinct.1
    simp only [writeFields, writeMembers, quoted, List.append_assoc, List.cons_append,
      List.nil_append]
    rw [readMembers, if_pos rfl, readString_escaped hk]
    dsimp only
    rw [skip_cons (by decide)]
    dsimp only
    rw [if_pos rfl, skip_write, ht]
    dsimp only
    rw [skip_cons (by decide)]
    dsimp only
    rw [if_pos rfl]
  | (k, t) :: (l, u) :: fields, n + 1, r, hn, _, hloaded, hdistinct => by
    simp only [sizeFields] at hn
    obtain ⟨hk, hloaded, hothers⟩ := loaded_obj_cons hloaded
    have ht := readValue_write t n (writeMembers ((l, u) :: fields) ++ r) (by omega)
      (stops_writeMembers _ r) hloaded hdistinct.1
    have hrest := readMembers_write ((l, u) :: fields) n r (by simp only [sizeFields]; omega)
      (List.cons_ne_nil _ _) hothers hdistinct.2
    simp only [writeFields, writeMembers, quoted, List.append_assoc, List.cons_append,
      List.nil_append] at hrest ht ⊢
    rw [readMembers, if_pos rfl, readString_escaped hk]
    dsimp only
    rw [skip_cons (by decide)]
    dsimp only
    rw [if_pos rfl, skip_write, ht]
    dsimp only
    rw [skip_cons (by decide)]
    dsimp only
    rw [if_neg (by decide), if_pos rfl, skip_cons (by decide), hrest]
    rfl
end

/-- `json.loads` reads back what `json.dumps` writes, with the fields in the order of their keys. -/
theorem loads_dumps {t : JsonValue} (hloaded : Loaded t) (hdistinct : t.Distinct) :
    loads float (dumps t) = some t.sorted := by
  have hsorted : Loaded t.sorted :=
    ⟨fun s hs => hloaded.1 s ((KeyedTree.mem_leaves_sorted t).mp hs),
      fun k hk => hloaded.2 k ((KeyedTree.mem_keys_sorted t).mp hk)⟩
  have hread := readValue_write hfloat t.sorted ((write t.sorted).length + 1) []
    (Nat.le_succ_of_le (size_le_length _)) nofun hsorted (KeyedTree.Distinct.sorted t hdistinct)
  have hskip := skip_write t.sorted []
  rw [List.append_nil] at hread hskip
  unfold loads dumps
  rw [hskip, hread]
  rfl

theorem sorted_of_dumps {t u : JsonValue} (ht : Loaded t) (hu : Loaded u) (htd : t.Distinct)
    (hud : u.Distinct) (h : dumps t = dumps u) : t.sorted = u.sorted := by
  have hread := loads_dumps hfloat ht htd
  rw [h, loads_dumps hfloat hu hud] at hread
  exact (Option.some.inj hread).symm

end Reading

/-! ## A reading of floats -/

theorem digitText_injective : Function.Injective digitText := by
  refine List.map_injective_iff.mpr fun d e h => Fin.ext ?_
  have hval := congrArg Fin.val h
  simp only [Fin.val_ofNat] at hval
  omega

namespace FloatText

theorem fraction_of_text {x y : FloatText} (h : x.fractionText = y.fractionText) :
    x.fraction = y.fraction := by
  unfold fractionText at h
  split at h
  next hx =>
    split at h
    next hy => rw [hx, hy]
    next => cases h
  next =>
    split at h
    next => cases h
    next => exact digitText_injective (List.cons.inj h).2

theorem exponent_of_text {x y : FloatText} (h : x.exponentText = y.exponentText) :
    x.exponent = y.exponent := by
  unfold exponentText at h
  cases hx : x.exponent with
  | none =>
    cases hy : y.exponent with
    | none => rfl
    | some e =>
      rw [hx, hy] at h
      cases h
  | some e =>
    cases hy : y.exponent with
    | none =>
      rw [hx, hy] at h
      cases h
    | some e' =>
      rw [hx, hy] at h
      obtain ⟨negative, digits⟩ := e
      obtain ⟨negative', digits'⟩ := e'
      have hrest := (List.cons.inj h).2
      have hdigits := digitText_injective (List.cons.inj hrest).2
      have hsign : (if negative = true then code '-' else code '+') =
          if negative' = true then code '-' else code '+' := (List.cons.inj hrest).1
      have hne : code '-' ≠ code '+' := by decide
      cases negative <;> cases negative' <;> simp_all

theorem text_injective : Function.Injective FloatText.text := by
  intro x y h
  have hunsigned : ∀ z : FloatText, JsonText.natText z.whole ++ (z.fractionText ++ z.exponentText) =
      JsonText.natText z.whole ++ (z.fractionText ++ (z.exponentText ++ [])) := by
    intro z
    rw [List.append_nil]
  have hnegative : x.negative = y.negative ∧
      JsonText.natText x.whole ++ (x.fractionText ++ x.exponentText) =
        JsonText.natText y.whole ++ (y.fractionText ++ y.exponentText) := by
    have hhead := congrArg List.head? h
    unfold text at h hhead
    cases hx : x.negative <;> cases hy : y.negative <;>
      simp only [hx, hy, if_true, Bool.false_eq_true, if_false, List.nil_append,
        List.cons_append, List.head?_cons] at h hhead
    · exact ⟨rfl, h⟩
    · exact absurd hhead (head_natText_ne_minus _ _)
    · exact absurd hhead.symm (head_natText_ne_minus _ _)
    · exact ⟨rfl, (List.cons.inj h).2⟩
  obtain ⟨hsign, htext⟩ := hnegative
  rw [hunsigned x, hunsigned y] at htext
  have hscan := congrArg scanNumber htext
  rw [scanNumber_float x stops_nil, scanNumber_float y stops_nil, Scanned.mk.injEq] at hscan
  obtain ⟨hwhole, hfraction, hexponent⟩ := hscan
  have hnat := congrArg natOf hwhole
  rw [natOf_natText, natOf_natText] at hnat
  exact FloatText.ext hsign hnat (fraction_of_text hfraction) (exponent_of_text hexponent)

end FloatText

theorem exists_float : ∃ float : PyStr → PyFloat, ∀ x : FloatText, float x.text = .finite x := by
  have hinjective : Function.Injective FloatText.text := FloatText.text_injective
  have : Nonempty FloatText := ⟨⟨false, 0, [0], none, .inl (List.cons_ne_nil _ _), nofun⟩⟩
  obtain ⟨read, hread⟩ := hinjective.hasLeftInverse
  exact ⟨fun text => .finite (read text), fun x => congrArg PyFloat.finite (hread x)⟩

end PythonJson

end Domain
