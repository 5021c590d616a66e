-- SUMMARY: The bridge from the changefeed to the queue and the check of its hints in the consumer: which hints the consumer refuses, and that a hint's event id determines its event.
import SiraSeil.Domain.PythonJson
import SiraSeil.SiraWorker.ChangefeedConsumer

/-!
# The change bridge

`services/changefeed/sira_changefeed/handler.py`: the webhook turns the events of a changefeed
batch into hints and sends each as the body of a queue message. The consumer of
`services/worker/sira_worker/changefeed_consumer.py` validates a hint again before it uses it.
The bridge checks the length of a product id and the type of a timestamp; the consumer checks
the characters of the id and the length of the timestamp as well.
-/

namespace SiraChangefeed

open Domain PythonJson PyStr Raising

/-- The services of Python that the bridge uses: `str.isprintable` on one character,
    `float` on the text of a number and the hexadecimal SHA-256 of a text. -/
structure Platform where
  printable : CodePoint → Bool
  float : PyStr → PyFloat
  sha256 : PyStr → PyStr
  printable_high : ∀ c, isHigh c = true → printable c = false
  float_text : ∀ x : FloatText, float x.text = .finite x
  sha256_length : ∀ text, (sha256 text).length = 64
  sha256_hex : ∀ text, ∀ c ∈ sha256 text, 48 ≤ c.val ∧ c.val ≤ 57 ∨ 97 ≤ c.val ∧ c.val ≤ 102

def lit (s : String) : PyStr := ofChars s.toList

/-! ## `str` -/

def hexText (width n : Nat) : PyStr :=
  (List.range width).reverse.map (fun i => hexDigit (n / 16 ^ i % 16))

/-- One character of the `repr` of a string in the given quotes -/
def reprChar (platform : Platform) (quote c : CodePoint) : PyStr :=
  if c = quote ∨ c = code '\\' then [code '\\', c]
  else if c.val = 9 then lit "\\t"
  else if c.val = 10 then lit "\\n"
  else if c.val = 13 then lit "\\r"
  else if c.val < 32 ∨ c.val = 127 then lit "\\x" ++ hexText 2 c.val
  else if c.val < 127 ∨ platform.printable c then [c]
  else if c.val ≤ 0xff then lit "\\x" ++ hexText 2 c.val
  else if c.val ≤ 0xffff then lit "\\u" ++ hexText 4 c.val
  else lit "\\U" ++ hexText 8 c.val

/-- Named, since the membership tests of `reprString` and `encode` rest on it -/
theorem lawfulBEq_codePoint : LawfulBEq CodePoint :=
  inferInstance

attribute [local instance] lawfulBEq_codePoint in
/-- `repr` of a string: in double quotes when it has single ones and no double ones -/
def reprString (platform : Platform) (s : PyStr) : PyStr :=
  let quote := if code '\'' ∈ s ∧ code '"' ∉ s then code '"' else code '\''
  quote :: (s.flatMap (reprChar platform quote) ++ [quote])

/-- `str` of a value that is no container -/
def leafStr : Leaf PyFloat → PyStr
  | .null => lit "None"
  | .bool true => lit "True"
  | .bool false => lit "False"
  | .int n => JsonText.intText n
  | .str s => s
  | .decimal .nan => lit "nan"
  | .decimal (.infinity false) => lit "inf"
  | .decimal (.infinity true) => lit "-inf"
  | .decimal (.finite x) => x.text

mutual
/-- `repr` -/
def repr (platform : Platform) : JsonValue → PyStr
  | .leaf (.str s) => reprString platform s
  | .leaf a => leafStr a
  | .seq items => code '[' :: (reprItems platform items ++ [code ']'])
  | .obj fields => 123 :: (reprFields platform fields ++ [125])

def reprItems (platform : Platform) : List JsonValue → PyStr
  | [] => []
  | [t] => repr platform t
  | t :: items => repr platform t ++ (lit ", " ++ reprItems platform items)

def reprFields (platform : Platform) : List (PyStr × JsonValue) → PyStr
  | [] => []
  | [(k, t)] => reprString platform k ++ (lit ": " ++ repr platform t)
  | (k, t) :: fields => reprString platform k ++
      (lit ": " ++ (repr platform t ++ (lit ", " ++ reprFields platform fields)))
end

/-- `str` -/
def str (platform : Platform) : JsonValue → PyStr
  | .leaf a => leafStr a
  | t => repr platform t

/-! ## The bridge -/

inductive HandlerError
  | typeError
  | valueError (message : String)
  deriving DecidableEq

/-- `mapping.get(name)` -/
def get (fields : List (PyStr × JsonValue)) (name : String) : JsonValue :=
  (fields.lookup (lit name)).getD (.leaf .null)

/-- `_TOPICS` -/
def topics : List PyStr := [lit "qualification_active_product_bundles"]

/-- What an accepted item of a batch says: the topic, the only part of the key, and the time. -/
structure Event where
  topic : PyStr
  first : JsonValue
  updated : PyStr

/-- The checks of `_hints` behind the row: one id, its length, and a time -/
def readIdentity (platform : Platform) (topic : PyStr) (first : JsonValue)
    (others : List JsonValue) (updated : JsonValue) : Except HandlerError Event :=
  if others ≠ [] then .error (.valueError "active bundle key must contain one product id")
  else
    match updated with
    | .leaf (.str updated) =>
      if str platform first = [] ∨ 64 < (str platform first).length then
        .error (.valueError "invalid identity")
      else .ok ⟨topic, first, updated⟩
    | _ => .error (.valueError "invalid identity")

/-- The checks of `_hints` on one item -/
def readEvent (platform : Platform) : JsonValue → Except HandlerError Event
  | .obj fields =>
    match get fields "topic" with
    | .seq _ | .obj _ => .error .typeError
    | .leaf (.str topic) =>
      if topic ∉ topics then .error (.valueError "unsupported event")
      else
        match get fields "key" with
        | .seq (first :: others) =>
          match get fields "after" with
          | .leaf .null | .obj _ => readIdentity platform topic first others (get fields "updated")
          | _ => .error (.valueError "invalid row")
        | _ => .error (.valueError "unsupported event")
    | _ => .error (.valueError "unsupported event")
  | _ => .error (.valueError "invalid event")

def Event.fields (event : Event) : List (PyStr × JsonValue) :=
  [(lit "topic", .leaf (.str event.topic)), (lit "key", .seq [event.first]),
    (lit "updated", .leaf (.str event.updated))]

/-- The value whose text is hashed into the event id -/
def Event.canonical (event : Event) : JsonValue := .obj event.fields

/-- A hint as it is sent -/
structure Hint where
  schemaVersion : PyStr
  eventType : PyStr
  aggregateId : PyStr
  sourceUpdatedAt : PyStr
  sourceEventId : PyStr
  authority : PyStr

def Event.hint (platform : Platform) (event : Event) : Hint where
  schemaVersion := lit "1"
  eventType := lit "PRODUCT_BUNDLE_CHANGED_HINT"
  aggregateId := str platform event.first
  sourceUpdatedAt := event.updated
  sourceEventId := platform.sha256 (dumps event.canonical)
  authority := lit "HINT_ONLY_REREAD_COCKROACH"

/-- The items of a batch; a watermark has none. -/
def batch : JsonValue → Except HandlerError (List JsonValue)
  | .obj fields =>
    if ¬ ∀ p ∈ fields, p.1 = lit "payload" ∨ p.1 = lit "resolved" then
      .error (.valueError "unexpected envelope")
    else
      match (fields.lookup (lit "payload")).getD (.seq []) with
      | .seq items => if 100 < items.length then .error (.valueError "invalid batch") else .ok items
      | .leaf .null =>
        if (fields.lookup (lit "resolved")).isSome then .ok []
        else .error (.valueError "invalid batch")
      | _ => .error (.valueError "invalid batch")
  | _ => .error (.valueError "unexpected envelope")

/-- The events of the batch that a document holds -/
def events (platform : Platform) (document : JsonValue) : Except HandlerError (List Event) := do
  (← batch document).mapM (readEvent platform)

def Hint.fields (hint : Hint) : List (PyStr × JsonValue) :=
  [(lit "schema_version", .leaf (.str hint.schemaVersion)),
    (lit "event_type", .leaf (.str hint.eventType)),
    (lit "aggregate_id", .leaf (.str hint.aggregateId)),
    (lit "source_updated_at", .leaf (.str hint.sourceUpdatedAt)),
    (lit "source_event_id", .leaf (.str hint.sourceEventId)),
    (lit "authority", .leaf (.str hint.authority))]

/-- The body of the queue message -/
def Hint.body (hint : Hint) : PyStr := dumps (.obj hint.fields)

/-! ## The consumer's check -/

def isIdCharacter (c : CodePoint) : Bool :=
  (48 ≤ c.val && c.val ≤ 57) || (65 ≤ c.val && c.val ≤ 90) || (97 ≤ c.val && c.val ≤ 122) ||
    c == code '_' || c == code '-'

def isHexDigit (c : CodePoint) : Bool :=
  (48 ≤ c.val && c.val ≤ 57) || (97 ≤ c.val && c.val ≤ 102)

/-- The checks of `ProductBundleChangedHint`, by field. Text that is not Unicode is no `str` for
    them. -/
def fieldChecks : List (PyStr × (PyStr → Bool)) :=
  [(lit "schema_version", fun s => s == lit "1"),
    (lit "event_type", fun s => s == lit "PRODUCT_BUNDLE_CHANGED_HINT"),
    (lit "aggregate_id", fun s => decide (1 ≤ s.length ∧ s.length ≤ 64) && s.all isIdCharacter),
    (lit "source_updated_at", fun s =>
      decide (1 ≤ s.length ∧ s.length ≤ 64) && s.all (fun c => decide (Scalar c))),
    (lit "source_event_id", fun s => decide (s.length = 64) && s.all isHexDigit),
    (lit "authority", fun s => s == lit "HINT_ONLY_REREAD_COCKROACH")]

/-- A field is there, and its text passes. -/
def passes (fields : List (PyStr × JsonValue)) (name : PyStr) (check : PyStr → Bool) : Bool :=
  match fields.lookup name with
  | some (.leaf (.str s)) => check s
  | _ => false

/-- `ProductBundleChangedHint.model_validate` -/
def modelValidate : JsonValue → Option SiraWorker.ProductBundleChangedHint
  | .obj fields =>
    if fields.all (fun p => (fieldChecks.map Prod.fst).contains p.1) &&
        fieldChecks.all (fun p => passes fields p.1 p.2) then
      match fields.lookup (lit "aggregate_id") with
      | some (.leaf (.str s)) => some ⟨String.ofList (s.map (fun c => Char.ofNat c.val))⟩
      | _ => none
    else none
  | _ => none

/-- The start of `ChangefeedHintConsumer.process`: the body of a message becomes a hint. -/
def readHint (platform : Platform) (body : PyStr) : Option SiraWorker.ProductBundleChangedHint :=
  (loads platform.float body).bind modelValidate

/-! ## Texts without surrogates -/

/-- No character is the first half of a surrogate pair. -/
def NoHigh (s : PyStr) : Prop := ∀ c ∈ s, isHigh c = false

theorem NoHigh.append {s t : PyStr} (hs : NoHigh s) (ht : NoHigh t) : NoHigh (s ++ t) :=
  fun c hc => (List.mem_append.mp hc).elim (hs c) (ht c)

theorem NoHigh.cons {c : CodePoint} {s : PyStr} (hc : isHigh c = false) (hs : NoHigh s) :
    NoHigh (c :: s) :=
  List.forall_mem_cons.mpr ⟨hc, hs⟩

theorem noHigh_nil : NoHigh [] := nofun

theorem NoHigh.flatMap {s : PyStr} {f : CodePoint → PyStr} (h : ∀ c, NoHigh (f c)) :
    NoHigh (s.flatMap f) := by
  intro c hc
  obtain ⟨d, -, hc⟩ := List.mem_flatMap.mp hc
  exact h d c hc

theorem NoHigh.whole {s : PyStr} (h : NoHigh s) : Whole s := by
  induction s with
  | nil => exact .nil
  | cons c s ih =>
    cases s with
    | nil => exact .singleton c
    | cons d s =>
      refine List.isChain_cons_cons.mpr ⟨?_, ih fun e he => h e (List.mem_cons_of_mem _ he)⟩
      rw [h c List.mem_cons_self, Bool.false_and]

theorem isHigh_of_lt {c : CodePoint} (h : c.val < 0xD800) : isHigh c = false := by
  unfold isHigh
  simp only [Bool.and_eq_false_iff, decide_eq_false_iff_not]
  omega

theorem noHigh_ofChars (text : List Char) : NoHigh (ofChars text) := by
  intro c hc
  obtain ⟨d, -, rfl⟩ := List.mem_map.mp hc
  have hscalar := scalar_code d
  unfold Scalar at hscalar
  unfold isHigh
  simp only [Bool.and_eq_false_iff, decide_eq_false_iff_not]
  omega

theorem noHigh_lit (s : String) : NoHigh (lit s) := noHigh_ofChars _

theorem noHigh_hexText (width n : Nat) : NoHigh (hexText width n) := by
  have hall : ∀ d < 16, isHigh (hexDigit d) = false := by decide
  intro c hc
  obtain ⟨i, -, rfl⟩ := List.mem_map.mp hc
  exact hall _ (Nat.mod_lt _ (by decide))

theorem noHigh_intText (n : Int) : NoHigh (JsonText.intText n) := by
  unfold JsonText.intText
  split
  · exact .cons (by decide) (noHigh_ofChars _)
  · exact noHigh_ofChars _

theorem noHigh_digitText (digits : List (Fin 10)) : NoHigh (digitText digits) := by
  have hall : ∀ d : Fin 10, isHigh (Fin.ofNat 0x110000 (48 + d.val)) = false := by decide
  intro c hc
  obtain ⟨d, -, rfl⟩ := List.mem_map.mp hc
  exact hall d

theorem noHigh_floatText (x : FloatText) : NoHigh x.text := by
  have hfraction : NoHigh x.fractionText := by
    unfold FloatText.fractionText
    split
    · exact noHigh_nil
    · exact .cons (by decide) (noHigh_digitText _)
  have hexponent : NoHigh x.exponentText := by
    unfold FloatText.exponentText
    split
    · exact noHigh_nil
    next negative digits _ =>
      exact .cons (by decide) (.cons (by cases negative <;> decide) (noHigh_digitText _))
  unfold FloatText.text
  refine .append ?_ ((noHigh_ofChars _).append (hfraction.append hexponent))
  split
  · exact .cons (by decide) noHigh_nil
  · exact noHigh_nil

variable {platform : Platform}

theorem noHigh_reprChar {quote : CodePoint} (hquote : isHigh quote = false) (c : CodePoint) :
    NoHigh (reprChar platform quote c) := by
  unfold reprChar
  split_ifs with hescape htab hline hreturn hcontrol hplain hbyte hunit
  · refine .cons (by decide) (.cons ?_ noHigh_nil)
    rcases hescape with rfl | rfl
    · exact hquote
    · decide
  · exact noHigh_lit _
  · exact noHigh_lit _
  · exact noHigh_lit _
  · exact (noHigh_lit _).append (noHigh_hexText _ _)
  · refine .cons ?_ noHigh_nil
    rcases hplain with hlt | hprintable
    · exact isHigh_of_lt (by omega)
    · by_contra hhigh
      rw [platform.printable_high c (Bool.not_eq_false _ ▸ hhigh)] at hprintable
      cases hprintable
  · exact (noHigh_lit _).append (noHigh_hexText _ _)
  · exact (noHigh_lit _).append (noHigh_hexText _ _)
  · exact (noHigh_lit _).append (noHigh_hexText _ _)

theorem noHigh_reprString (s : PyStr) : NoHigh (reprString platform s) := by
  unfold reprString
  have hquote : isHigh (if code '\'' ∈ s ∧ code '"' ∉ s then code '"' else code '\'') = false := by
    split <;> decide
  exact .cons hquote (.append (.flatMap fun c => noHigh_reprChar hquote c)
    (.cons hquote noHigh_nil))

theorem noHigh_leafStr {a : Leaf PyFloat} (ha : a.kind ≠ .str) : NoHigh (leafStr a) := by
  cases a with
  | null => exact noHigh_lit _
  | bool b => cases b <;> exact noHigh_lit _
  | int n => exact noHigh_intText n
  | str s => exact absurd rfl ha
  | decimal x =>
    cases x with
    | nan => exact noHigh_lit _
    | infinity negative => cases negative <;> exact noHigh_lit _
    | finite x => exact noHigh_floatText x

mutual
/-- The `repr` of a value escapes surrogates. -/
theorem noHigh_repr : (t : JsonValue) → NoHigh (repr platform t)
  | .leaf (.str s) => noHigh_reprString s
  | .leaf .null => noHigh_leafStr (a := .null) (by decide)
  | .leaf (.bool b) => noHigh_leafStr (a := .bool b) nofun
  | .leaf (.int n) => noHigh_leafStr (a := .int n) nofun
  | .leaf (.decimal x) => noHigh_leafStr (a := .decimal x) nofun
  | .seq items => .cons (by decide) ((noHigh_reprItems items).append (.cons (by decide) noHigh_nil))
  | .obj fields =>
    .cons (by decide) ((noHigh_reprFields fields).append (.cons (by decide) noHigh_nil))

theorem noHigh_reprItems : (items : List JsonValue) → NoHigh (reprItems platform items)
  | [] => noHigh_nil
  | [t] => noHigh_repr t
  | t :: u :: items =>
    (noHigh_repr t).append ((noHigh_lit _).append (noHigh_reprItems (u :: items)))

theorem noHigh_reprFields : (fields : List (PyStr × JsonValue)) →
    NoHigh (reprFields platform fields)
  | [] => noHigh_nil
  | [(k, t)] => (noHigh_reprString k).append ((noHigh_lit _).append (noHigh_repr t))
  | (k, t) :: p :: fields => (noHigh_reprString k).append ((noHigh_lit _).append
      ((noHigh_repr t).append ((noHigh_lit _).append (noHigh_reprFields (p :: fields)))))
end

theorem whole_str {t : JsonValue} (h : Loaded t) : Whole (str platform t) := by
  cases t with
  | leaf a =>
    by_cases ha : a.kind = .str
    · cases a with
      | str s => exact h.1 s (List.mem_singleton_self _)
      | _ => cases ha
    · exact (noHigh_leafStr ha).whole
  | seq items => exact (noHigh_repr (.seq items)).whole
  | obj fields => exact (noHigh_repr (.obj fields)).whole

/-! ## Fields in another order -/

section Fields

variable {fields fields' : List (PyStr × JsonValue)}

theorem lookup_eq_some_iff (hnodup : (fields.map Prod.fst).Nodup) {name : PyStr}
    {value : JsonValue} : fields.lookup name = some value ↔ (name, value) ∈ fields := by
  induction fields with
  | nil => simp
  | cons p fields ih =>
    obtain ⟨k, t⟩ := p
    obtain ⟨hk, hrest⟩ := List.nodup_cons.mp hnodup
    rw [List.lookup_cons, List.mem_cons, Prod.mk.injEq]
    by_cases hname : name = k
    · subst hname
      have hout : (name, value) ∉ fields := fun hmem =>
        hk (List.mem_map.mpr ⟨(name, value), hmem, rfl⟩)
      simp [hout, eq_comm]
    · rw [beq_eq_false_iff_ne.mpr hname]
      simp [ih hrest, hname]

theorem lookup_perm (hnodup : (fields.map Prod.fst).Nodup) (h : fields.Perm fields')
    (name : PyStr) : fields'.lookup name = fields.lookup name := by
  have hnodup' : (fields'.map Prod.fst).Nodup := (h.map Prod.fst).nodup_iff.mp hnodup
  refine Option.ext fun value => ?_
  rw [lookup_eq_some_iff hnodup, lookup_eq_some_iff hnodup', h.mem_iff]

theorem lookup_sortedFields (name : PyStr) :
    (KeyedTree.sortedFields fields).lookup name = (fields.lookup name).map KeyedTree.sorted := by
  induction fields with
  | nil => rfl
  | cons p fields ih =>
    obtain ⟨k, t⟩ := p
    simp only [KeyedTree.sortedFields, List.lookup_cons]
    cases name == k with
    | true => rfl
    | false => exact ih

theorem modelValidate_perm (hnodup : (fields.map Prod.fst).Nodup) (h : fields.Perm fields') :
    modelValidate (.obj fields') = modelValidate (.obj fields) := by
  have hpasses : ∀ name check, passes fields' name check = passes fields name check := by
    intro name check
    unfold passes
    rw [lookup_perm hnodup h]
  unfold modelValidate
  simp only [hpasses, lookup_perm hnodup h, h.all_eq]

theorem lookup_of_sorted (hnodup : (fields.map Prod.fst).Nodup)
    (hnodup' : (fields'.map Prod.fst).Nodup)
    (h : (KeyedTree.obj fields : JsonValue).sorted = (KeyedTree.obj fields').sorted)
    (name : PyStr) :
    (fields.lookup name).map KeyedTree.sorted = (fields'.lookup name).map KeyedTree.sorted := by
  have hread : ∀ {l : List (PyStr × JsonValue)}, (l.map Prod.fst).Nodup →
      (l.lookup name).map KeyedTree.sorted =
        (Sorting.sortedBy Prod.fst (KeyedTree.sortedFields l)).lookup name := by
    intro l hl
    have hkeys : ((KeyedTree.sortedFields l).map Prod.fst).Nodup := by
      rw [KeyedTree.sortedFields_eq, List.map_map]
      exact hl
    rw [lookup_perm hkeys (Sorting.sortedBy_perm Prod.fst _).symm, lookup_sortedFields]
  rw [hread hnodup, hread hnodup']
  exact congrArg (List.lookup name) (KeyedTree.obj.inj h)

end Fields

/-! ## Delivered hints -/

theorem keys_fields (hint : Hint) : (hint.fields.map Prod.fst).Nodup := by
  have hkeys : ([lit "schema_version", lit "event_type", lit "aggregate_id",
      lit "source_updated_at", lit "source_event_id", lit "authority"] : List PyStr).Nodup := by
    decide +kernel
  exact hkeys

/-- The texts of a hint in the order of its fields -/
def Hint.texts (hint : Hint) : List PyStr :=
  [hint.schemaVersion, hint.eventType, hint.aggregateId, hint.sourceUpdatedAt, hint.sourceEventId,
    hint.authority]

theorem ofText_fields {hint : Hint} (h : ∀ s ∈ hint.texts, Whole s) :
    OfText (.obj hint.fields) := by
  refine ofText_obj_iff.mpr ⟨keys_fields hint, fun p hp => ⟨?_, ?_⟩⟩
  · have hnames : ∀ k ∈ hint.fields.map Prod.fst, ∃ name, k = lit name := by
      simp [Hint.fields]
    obtain ⟨name, hname⟩ := hnames p.1 (List.mem_map_of_mem hp)
    rw [hname]
    exact (noHigh_lit name).whole
  · have hleaves : hint.fields.map Prod.snd =
        hint.texts.map (fun s => (.leaf (.str s) : JsonValue)) := rfl
    have hvalue : p.2 ∈ hint.fields.map Prod.snd := List.mem_map_of_mem hp
    rw [hleaves] at hvalue
    obtain ⟨s, hs, heq⟩ := List.mem_map.mp hvalue
    rw [← heq]
    refine ofText_leaf fun s' hs' => ?_
    cases hs'
    exact h s hs

theorem readHint_body {hint : Hint} (h : ∀ s ∈ hint.texts, Whole s) :
    readHint platform hint.body = modelValidate (.obj hint.fields) := by
  obtain ⟨hloaded, hdistinct⟩ := ofText_fields h
  have hperm := Sorting.sortedBy_perm Prod.fst hint.fields
  unfold readHint Hint.body
  rw [loads_dumps platform.float_text hloaded hdistinct, Option.bind_some]
  exact modelValidate_perm (keys_fields hint) hperm.symm

theorem passes_eq {fields : List (PyStr × JsonValue)} (hnodup : (fields.map Prod.fst).Nodup)
    {name s : PyStr} (hmem : (name, .leaf (.str s)) ∈ fields) (check : PyStr → Bool) :
    passes fields name check = check s := by
  unfold passes
  rw [(lookup_eq_some_iff hnodup).mpr hmem]

/-- An id as the consumer takes it -/
def IdText (s : PyStr) : Prop :=
  (1 ≤ s.length ∧ s.length ≤ 64) ∧ ∀ c ∈ s, isIdCharacter c = true

/-- A time as the consumer takes it -/
def TimeText (s : PyStr) : Prop :=
  (1 ≤ s.length ∧ s.length ≤ 64) ∧ ∀ c ∈ s, Scalar c

/-- What the consumer asks of the fields of a hint -/
structure Hint.Valid (hint : Hint) : Prop where
  version : hint.schemaVersion = lit "1"
  type : hint.eventType = lit "PRODUCT_BUNDLE_CHANGED_HINT"
  aggregate : IdText hint.aggregateId
  time : TimeText hint.sourceUpdatedAt
  event : hint.sourceEventId.length = 64 ∧ ∀ c ∈ hint.sourceEventId, isHexDigit c = true
  authority : hint.authority = lit "HINT_ONLY_REREAD_COCKROACH"

theorem fieldChecks_iff (hint : Hint) :
    fieldChecks.all (fun p => passes hint.fields p.1 p.2) = true ↔ hint.Valid := by
  have hread := @passes_eq hint.fields (keys_fields hint)
  simp only [fieldChecks, List.all_cons, List.all_nil, Bool.and_true]
  rw [hread (s := hint.schemaVersion) (by simp [Hint.fields]),
    hread (s := hint.eventType) (by simp [Hint.fields]),
    hread (s := hint.aggregateId) (by simp [Hint.fields]),
    hread (s := hint.sourceUpdatedAt) (by simp [Hint.fields]),
    hread (s := hint.sourceEventId) (by simp [Hint.fields]),
    hread (s := hint.authority) (by simp [Hint.fields])]
  simp only [Bool.and_eq_true, beq_iff_eq, decide_eq_true_eq, List.all_eq_true]
  constructor
  · rintro ⟨hversion, htype, haggregate, htime, hevent, hauthority⟩
    exact ⟨hversion, htype, haggregate, htime, hevent, hauthority⟩
  · rintro ⟨hversion, htype, haggregate, htime, hevent, hauthority⟩
    exact ⟨hversion, htype, haggregate, htime, hevent, hauthority⟩

theorem modelValidate_fields (hint : Hint) (bundle : SiraWorker.ProductBundleChangedHint) :
    modelValidate (.obj hint.fields) = some bundle ↔ hint.Valid ∧
      String.ofList (hint.aggregateId.map (fun c => Char.ofNat c.val)) = bundle.aggregateId := by
  have hnames : hint.fields.all (fun p => (fieldChecks.map Prod.fst).contains p.1) = true := by
    refine List.all_eq_true.mpr fun p hp => List.contains_iff_mem.mpr ?_
    exact @List.mem_map_of_mem _ _ _ _ Prod.fst hp
  have hid : hint.fields.lookup (lit "aggregate_id") = some (.leaf (.str hint.aggregateId)) :=
    (lookup_eq_some_iff (keys_fields hint)).mpr (by simp [Hint.fields])
  unfold modelValidate
  dsimp only
  rw [hnames, Bool.true_and, hid]
  dsimp only
  rw [Option.ite_none_right_eq_some, fieldChecks_iff, Option.some.injEq]
  refine and_congr_right fun _ => ?_
  cases bundle
  rw [SiraWorker.ProductBundleChangedHint.mk.injEq]

theorem scalar_of_isIdCharacter {c : CodePoint} (h : isIdCharacter c = true) : Scalar c := by
  unfold isIdCharacter at h
  unfold Scalar
  simp only [Bool.or_eq_true, Bool.and_eq_true, decide_eq_true_eq, beq_iff_eq] at h
  rcases h with (((h | h) | h) | rfl) | rfl
  · omega
  · omega
  · omega
  · decide
  · decide

theorem lit_ofList {s : PyStr} (h : ∀ c ∈ s, Scalar c) :
    lit (String.ofList (s.map (fun c => Char.ofNat c.val))) = s := by
  unfold lit ofChars
  rw [String.toList_ofList, List.map_map]
  conv => rhs; rw [← List.map_id s]
  refine List.map_congr_left fun c hc => Fin.ext ?_
  have hscalar := h c hc
  have hvalid : c.val.isValidChar := by
    unfold Scalar at hscalar
    unfold Nat.isValidChar
    omega
  rw [Function.comp_apply, code_val, Char.ofNat, dif_pos hvalid]
  rfl

/-! ## The two services together -/

/-- The webhook accepts a document with this event in it. -/
def Accepted (platform : Platform) (event : Event) : Prop :=
  ∃ text document found, loads platform.float text = some document ∧
    events platform document = .ok found ∧ event ∈ found

/-- The consumer takes the hint of the event, and for the product of the event's key. -/
def Delivered (platform : Platform) (event : Event) : Prop :=
  ∃ bundle, readHint platform (event.hint platform).body = some bundle ∧
    lit bundle.aggregateId = str platform event.first

/-- Two events of one topic, key and time. Keys that differ in the order of fields are equal. -/
def Event.Same (event event' : Event) : Prop :=
  event.topic = event'.topic ∧ event.first.sorted = event'.first.sorted ∧
    event.updated = event'.updated

/-- The texts of the event are within the consumer's bounds. -/
def Event.Readable (platform : Platform) (event : Event) : Prop :=
  (∀ c ∈ str platform event.first, isIdCharacter c = true) ∧ TimeText event.updated

/-- What the bridge checks, and what every text read with `json.loads` has -/
structure Event.Sound (platform : Platform) (event : Event) : Prop where
  topic : event.topic ∈ topics
  first : OfText event.first
  updated : Whole event.updated
  id : 1 ≤ (str platform event.first).length ∧ (str platform event.first).length ≤ 64

theorem ofText_get {fields : List (PyStr × JsonValue)} (h : OfText (.obj fields)) (name : String) :
    OfText (get fields name) := by
  obtain ⟨hnodup, hfields⟩ := ofText_obj_iff.mp h
  unfold get
  cases hlookup : fields.lookup (lit name) with
  | none => exact ofText_leaf nofun
  | some t => exact (hfields _ ((lookup_eq_some_iff hnodup).mp hlookup)).2

variable {event : Event}

theorem readIdentity_sound {topic : PyStr} {first updated : JsonValue} {others : List JsonValue}
    (htopic : topic ∈ topics) (hfirst : OfText first) (hupdated : OfText updated)
    (h : readIdentity platform topic first others updated = .ok event) : event.Sound platform := by
  unfold readIdentity at h
  split at h
  · cases h
  split at h
  next updated =>
    split at h
    · cases h
    next hid =>
      cases h
      rw [not_or, ← ne_eq, ← List.length_pos_iff, not_lt] at hid
      exact ⟨htopic, hfirst, hupdated.loaded.1 _ (List.mem_singleton_self _), hid⟩
  · cases h

theorem readEvent_sound {item : JsonValue} (hitem : OfText item)
    (h : readEvent platform item = .ok event) : event.Sound platform := by
  cases item with
  | leaf a => cases h
  | seq items => cases h
  | obj fields =>
    have hkey := ofText_get hitem "key"
    have hupdated := ofText_get hitem "updated"
    unfold readEvent at h
    dsimp only at h
    split at h
    · cases h
    · cases h
    · split_ifs at h with htopic
      split at h
      next first others hfirst =>
        rw [hfirst] at hkey
        have hid := ofText_seq_iff.mp hkey first List.mem_cons_self
        split at h
        · exact readIdentity_sound htopic hid hupdated h
        · exact readIdentity_sound htopic hid hupdated h
        · cases h
      · cases h
    · cases h

theorem batch_ofText {document : JsonValue} {items : List JsonValue} (hdocument : OfText document)
    (h : batch document = .ok items) : ∀ t ∈ items, OfText t := by
  cases document with
  | leaf a => cases h
  | seq items => cases h
  | obj fields =>
    obtain ⟨hnodup, hfields⟩ := ofText_obj_iff.mp hdocument
    unfold batch at h
    dsimp only at h
    split at h
    · cases h
    split at h
    next found hpayload =>
      split_ifs at h
      cases h
      refine ofText_seq_iff.mp ?_
      rw [← hpayload]
      cases hlookup : fields.lookup (lit "payload") with
      | none => exact ofText_seq_iff.mpr nofun
      | some t => exact (hfields _ ((lookup_eq_some_iff hnodup).mp hlookup)).2
    · split_ifs at h
      cases h
      exact nofun
    · cases h

theorem Accepted.sound (h : Accepted platform event) : event.Sound platform := by
  obtain ⟨text, document, found, hloads, hevents, hmem⟩ := h
  obtain ⟨items, hbatch, hfound⟩ := bind_eq_ok.mp hevents
  obtain ⟨item, hitem, hread⟩ := (mem_of_mapM_eq_ok hfound).mp hmem
  exact readEvent_sound (batch_ofText (loads_ofText hloads) hbatch item hitem) hread

theorem whole_sha256 (text : PyStr) : Whole (platform.sha256 text) := by
  refine NoHigh.whole fun c hc => isHigh_of_lt ?_
  have hrange := platform.sha256_hex text c hc
  omega

theorem whole_texts (h : event.Sound platform) : ∀ s ∈ (event.hint platform).texts, Whole s := by
  intro s hs
  simp only [Hint.texts, Event.hint, List.mem_cons, List.not_mem_nil, or_false] at hs
  rcases hs with rfl | rfl | rfl | rfl | rfl | rfl
  · exact (noHigh_lit _).whole
  · exact (noHigh_lit _).whole
  · exact whole_str h.first.loaded
  · exact h.updated
  · exact whole_sha256 _
  · exact (noHigh_lit _).whole

theorem keys_canonical (event : Event) : (event.fields.map Prod.fst).Nodup := by
  have hkeys : [lit "topic", lit "key", lit "updated"].Nodup := by decide +kernel
  exact hkeys

theorem ofText_canonical (h : event.Sound platform) : OfText event.canonical := by
  have htopic : Whole event.topic := by
    rw [List.mem_singleton.mp h.topic]
    exact (noHigh_lit _).whole
  have hstr : ∀ {s : PyStr}, Whole s → OfText (.leaf (.str s)) :=
    fun hs => ofText_leaf fun _ heq => Leaf.str.inj heq ▸ hs
  refine ofText_obj_iff.mpr ⟨keys_canonical event, ?_⟩
  simp only [Event.fields, List.forall_mem_cons, List.not_mem_nil, false_imp_iff]
  exact ⟨⟨(noHigh_lit _).whole, hstr htopic⟩,
    ⟨(noHigh_lit _).whole, ofText_seq_iff.mpr (List.forall_mem_singleton.mpr h.first)⟩,
    ⟨(noHigh_lit _).whole, hstr h.updated⟩, fun _ => trivial⟩

/-- The hint of an accepted event reaches the consumer's handling exactly when the event is
    readable. -/
theorem delivered_iff (h : event.Sound platform) :
    Delivered platform event ↔ event.Readable platform := by
  unfold Delivered
  rw [readHint_body (whole_texts h)]
  simp only [modelValidate_fields]
  constructor
  · rintro ⟨bundle, ⟨hvalid, -⟩, -⟩
    exact ⟨hvalid.aggregate.2, hvalid.time⟩
  · rintro ⟨hid, htime⟩
    have hvalid : (event.hint platform).Valid := by
      refine ⟨rfl, rfl, ⟨h.id, hid⟩, htime, ⟨platform.sha256_length _, fun c hc => ?_⟩, rfl⟩
      have hrange := platform.sha256_hex _ c hc
      unfold isHexDigit
      simp only [Bool.or_eq_true, Bool.and_eq_true, decide_eq_true_eq]
      exact hrange
    exact ⟨⟨_⟩, ⟨hvalid, rfl⟩, lit_ofList fun c hc => scalar_of_isIdCharacter (hid c hc)⟩

theorem same_of_canonical {event' : Event} (h : event.Sound platform) (h' : event'.Sound platform)
    (hdumps : dumps event.canonical = dumps event'.canonical) : event.Same event' := by
  have hcanonical := ofText_canonical h
  have hcanonical' := ofText_canonical h'
  have hsorted := sorted_of_dumps platform.float_text hcanonical.loaded hcanonical'.loaded
    hcanonical.distinct hcanonical'.distinct hdumps
  have hread : ∀ (event : Event) {name : PyStr} {value : JsonValue},
      (name, value) ∈ event.fields → event.fields.lookup name = some value :=
    fun event _ _ hmem => (lookup_eq_some_iff (keys_canonical event)).mpr hmem
  have hfield := lookup_of_sorted (keys_canonical event) (keys_canonical event') hsorted
  have htopic := hfield (lit "topic")
  have hkey := hfield (lit "key")
  have hupdated := hfield (lit "updated")
  rw [hread event (.head _), hread event' (.head _)] at htopic
  rw [hread event (.tail _ (.head _)), hread event' (.tail _ (.head _))] at hkey
  rw [hread event (.tail _ (.tail _ (.head _))), hread event' (.tail _ (.tail _ (.head _)))]
    at hupdated
  simp only [Option.map_some, KeyedTree.sorted, KeyedTree.sortedSeq, Option.some.injEq,
    KeyedTree.leaf.injEq, Leaf.str.injEq, KeyedTree.seq.injEq, List.cons.injEq, and_true]
    at htopic hkey hupdated
  exact ⟨htopic, hkey, hupdated⟩

/-- Over all events that the webhook ever accepted: each hint is delivered, and equal event ids
    mean equal events, exactly when every event is readable. The hash is only asked not to collide
    on the texts of these events. -/
theorem bridge_iff {history : List Event} (haccepted : ∀ event ∈ history, Accepted platform event)
    (hcollision : ∀ event ∈ history, ∀ event' ∈ history,
      platform.sha256 (dumps event.canonical) = platform.sha256 (dumps event'.canonical) →
        dumps event.canonical = dumps event'.canonical) :
    ((∀ event ∈ history, Delivered platform event) ∧
      ∀ event ∈ history, ∀ event' ∈ history,
        (event.hint platform).sourceEventId = (event'.hint platform).sourceEventId →
          event.Same event') ↔
      ∀ event ∈ history, event.Readable platform := by
  constructor
  · rintro ⟨hdelivered, -⟩ event hevent
    exact (delivered_iff (haccepted event hevent).sound).mp (hdelivered event hevent)
  · intro hreadable
    refine ⟨fun event hevent => ?_, fun event hevent event' hevent' hid => ?_⟩
    · exact (delivered_iff (haccepted event hevent).sound).mpr (hreadable event hevent)
    · exact same_of_canonical (haccepted event hevent).sound (haccepted event' hevent').sound
        (hcollision event hevent event' hevent' hid)

theorem exists_platform {hash : PyStr} (hlength : hash.length = 64)
    (hhex : hash.all
      (fun c => decide (48 ≤ c.val ∧ c.val ≤ 57 ∨ 97 ≤ c.val ∧ c.val ≤ 102)) = true) :
    ∃ platform : Platform, ∀ text, platform.sha256 text = hash := by
  obtain ⟨float, hfloat⟩ := exists_float
  have hdigits := fun c hc => of_decide_eq_true (List.all_eq_true.mp hhex c hc)
  exact ⟨⟨fun _ => false, float, fun _ => hash, fun _ _ => rfl, hfloat, fun _ => hlength,
    fun _ => hdigits⟩, fun _ => rfl⟩

/-- The fields of an event for a product, in the order of their names -/
def eventFields (product : String) : List (PyStr × JsonValue) :=
  [(lit "after", .leaf .null), (lit "key", .seq [.leaf (.str (lit product))]),
    (lit "topic", .leaf (.str (lit "qualification_active_product_bundles"))),
    (lit "updated", .leaf (.str (lit "1755040000.0")))]

/-- The batch of one event for a product -/
def batchOf (product : String) : JsonValue :=
  .obj [(lit "payload", .seq [.obj (eventFields product)])]

def eventOf (product : String) : Event :=
  ⟨lit "qualification_active_product_bundles", .leaf (.str (lit product)), lit "1755040000.0"⟩

theorem keys_eventFields (product : String) : ((eventFields product).map Prod.fst).Nodup := by
  have hkeys : [lit "after", lit "key", lit "topic", lit "updated"].Nodup := by decide
  exact hkeys

theorem sorted_batchOf (product : String) : (batchOf product).sorted = batchOf product := by
  have hkeys : [lit "after", lit "key", lit "topic", lit "updated"].Pairwise (· ≤ ·) := by decide
  have hfields : (KeyedTree.obj (eventFields product) : JsonValue).sorted =
      .obj (eventFields product) :=
    congrArg KeyedTree.obj (Sorting.sortedBy_of_pairwise (List.pairwise_map.mp hkeys))
  unfold batchOf
  simp only [KeyedTree.sorted, KeyedTree.sortedFields, KeyedTree.sortedSeq]
  rw [← KeyedTree.sorted, hfields]
  rfl

theorem ofText_batchOf (product : String) : OfText (batchOf product) := by
  have hstr : ∀ s, OfText (.leaf (.str (lit s))) :=
    fun s => ofText_leaf fun _ heq => Leaf.str.inj heq ▸ (noHigh_lit s).whole
  have hfields : OfText (.obj (eventFields product)) := by
    refine ofText_obj_iff.mpr ⟨keys_eventFields product, ?_⟩
    simp only [eventFields, List.forall_mem_cons, List.not_mem_nil, false_imp_iff]
    exact ⟨⟨(noHigh_lit _).whole, ofText_leaf (fun _ heq => by cases heq)⟩,
      ⟨(noHigh_lit _).whole, ofText_seq_iff.mpr (List.forall_mem_singleton.mpr (hstr _))⟩,
      ⟨(noHigh_lit _).whole, hstr _⟩, ⟨(noHigh_lit _).whole, hstr _⟩, fun _ => trivial⟩
  refine ofText_obj_iff.mpr ⟨List.nodup_singleton _, List.forall_mem_singleton.mpr ?_⟩
  exact ⟨(noHigh_lit _).whole, ofText_seq_iff.mpr (List.forall_mem_singleton.mpr hfields)⟩

theorem events_batchOf {product : String}
    (hlength : 1 ≤ (lit product).length ∧ (lit product).length ≤ 64) :
    events platform (batchOf product) = .ok [eventOf product] := by
  have hbatch : batch (batchOf product) = .ok [.obj (eventFields product)] := by
    have hknown : ∀ p ∈ [(lit "payload", (KeyedTree.seq [.obj (eventFields product)] : JsonValue))],
        p.1 = lit "payload" ∨ p.1 = lit "resolved" := List.forall_mem_singleton.mpr (.inl rfl)
    unfold batch batchOf
    dsimp only
    rw [if_neg (not_not_intro hknown), List.lookup_cons_self]
    rfl
  have hget : ∀ {name : String} {value : JsonValue}, (lit name, value) ∈ eventFields product →
      get (eventFields product) name = value := by
    intro name value hmem
    unfold get
    rw [(lookup_eq_some_iff (keys_eventFields product)).mpr hmem]
    rfl
  have hevent : readEvent platform (.obj (eventFields product)) = .ok (eventOf product) := by
    have htopic : lit "qualification_active_product_bundles" ∈ topics := List.mem_singleton_self _
    have hid : ¬ (lit product = [] ∨ 64 < (lit product).length) := by
      rw [not_or, ← ne_eq, ← List.length_pos_iff, not_lt]
      exact hlength
    unfold readEvent
    dsimp only
    rw [@hget "topic" _ (.tail _ (.tail _ (.head _)))]
    dsimp only
    rw [if_neg (not_not_intro htopic), @hget "key" _ (.tail _ (.head _))]
    dsimp only
    rw [@hget "after" _ (.head _)]
    dsimp only
    rw [@hget "updated" _ (.tail _ (.tail _ (.tail _ (.head _))))]
    unfold readIdentity
    rw [if_neg (not_not_intro rfl)]
    exact if_neg hid
  unfold events
  rw [hbatch, ok_bind, List.mapM_cons, hevent]
  rfl

theorem accepted_eventOf {product : String}
    (hlength : 1 ≤ (lit product).length ∧ (lit product).length ≤ 64) :
    Accepted platform (eventOf product) := by
  have hbatch := ofText_batchOf product
  refine ⟨dumps (batchOf product), batchOf product, [eventOf product], ?_, events_batchOf hlength,
    List.mem_cons_self⟩
  rw [loads_dumps platform.float_text hbatch.loaded hbatch.distinct, sorted_batchOf]

theorem bridge_iff_sample : ∃ platform : Platform,
    (∀ event ∈ [eventOf "product_alpha"], Delivered platform event) ∧
      ∀ event ∈ [eventOf "product_alpha"], ∀ event' ∈ [eventOf "product_alpha"],
        (event.hint platform).sourceEventId = (event'.hint platform).sourceEventId →
          event.Same event' := by
  -- The hash is the one of the only text that is hashed here.
  obtain ⟨platform, -⟩ := @exists_platform
    (lit "053bea57632b4a2eca28b57eafd00a69b5a1b5ee86508f5ba78fea994d5a7ffc")
    (by decide) (by decide)
  have haccepted : Accepted platform (eventOf "product_alpha") :=
    accepted_eventOf (by decide)
  have hid : (lit "product_alpha").all isIdCharacter = true := by decide
  have htime : (lit "1755040000.0").all (fun c => decide (Scalar c)) = true := by decide
  have hreadable : (eventOf "product_alpha").Readable platform :=
    ⟨List.all_eq_true.mp hid,
      (by decide : 1 ≤ (lit "1755040000.0").length ∧ (lit "1755040000.0").length ≤ 64),
      fun c hc => of_decide_eq_true (List.all_eq_true.mp htime c hc)⟩
  refine ⟨platform, (bridge_iff (List.forall_mem_singleton.mpr haccepted) ?_).mpr
    (List.forall_mem_singleton.mpr hreadable)⟩
  intro event hevent event' hevent' _
  rw [List.mem_singleton.mp hevent, List.mem_singleton.mp hevent']

/-- A product id with a point reaches the queue and never the consumer's handling. -/
theorem refused_after_bridge : ∃ platform : Platform,
    Accepted platform (eventOf "product.alpha") ∧
      ¬ Delivered platform (eventOf "product.alpha") := by
  obtain ⟨platform, -⟩ := @exists_platform
    (lit "a99752f3ffc64ad05167930f9419e80554037a70d78d6ae9946f56128f342877")
    (by decide) (by decide)
  have haccepted : Accepted platform (eventOf "product.alpha") :=
    accepted_eventOf (by decide)
  refine ⟨platform, haccepted, fun hdelivered => ?_⟩
  have hrefused : (lit "product.alpha").all isIdCharacter = false := by decide
  have hid := List.all_eq_true.mpr ((delivered_iff haccepted.sound).mp hdelivered).1
  exact Bool.false_ne_true (hrefused.symm.trans hid)

end SiraChangefeed
