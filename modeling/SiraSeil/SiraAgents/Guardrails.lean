-- SUMMARY: The guard of the model boundary: what it accepts, which secrets it lets pass, and which keys it refuses that name nothing denied.
import SiraSeil.Domain.PrivatePlane
import SiraSeil.Domain.Publication
import SiraSeil.Library.Raising
import SiraSeil.Library.Regex
import SiraSeil.Library.Words

/-!
# Guardrails

`sira_agents/guardrails.py` walks every payload for a model before it is sent as JSON. It refuses
keys with a denied name in them, and strings in which it finds a credential or a card number.
-/

namespace SiraAgents

open Domain

/-- A leaf of a payload; a float is given by its text in JSON. -/
inductive Scalar
  | str (s : String)
  | int (n : Int)
  | float (text : String)
  | bool (b : Bool)
  | null
  deriving DecidableEq, Repr

abbrev Payload := KeyedTree String Scalar

/-- `_SECRET_KEY_PARTS` -/
def secretKeyParts : List String :=
  ["api_key", "authorization", "card_number", "client_secret", "credential", "cvv", "cvc",
    "one_time_password", "pan", "password", "private_key", "secret", "security_code", "token"]

/-- `_SELLER_DENIED_KEY_PARTS` -/
def sellerDeniedKeyParts : List String :=
  ["buyer_passport", "buyer_private", "company_private", "hidden_budget", "identity_graph",
    "internal_budget", "private_context", "private_notes"]

/-- `_BUYER_DENIED_KEY_PARTS` -/
def buyerDeniedKeyParts : List String :=
  ["seller_private", "seller_floor", "seller_capacity", "private_claims", "private_sources",
    "disclosure_policy"]

/-- What the guard asks of Python's texts: the letters of words and the digits of `re`, whose rules
    for ASCII are known -/
structure TextRules extends Lowering where
  isWord : Char → Bool
  isDigit : Char → Bool
  isWord_ascii : ∀ c, c.toNat < 128 → isWord c = (c.isAlphanum || c = '_')
  isDigit_ascii : ∀ c, c.toNat < 128 → isDigit c = c.isDigit

/-- `[A-Za-z0-9_-]` -/
def isKeyLetter (c : Char) : Bool :=
  c.isAlphanum || c = '_' || c = '-'

/-- `[a-z0-9]` -/
def isNameLetter (c : Char) : Bool :=
  c.isLower || c.isDigit

section Guard

variable (rules : TextRules)

/-- `\bsk-[A-Za-z0-9_-]{12,}\b` -/
def keyPattern : Regex Char :=
  .seq .boundary (.seq (.one (· = 's')) (.seq (.one (· = 'k')) (.seq (.one (· = '-'))
    (.seq (.between (.one isKeyLetter) 12 12) (.seq (.many isKeyLetter) .boundary)))))

/-- `\d[ -]*?` -/
def cardDigit : Regex Char :=
  .seq (.one rules.isDigit) (.many (fun c => c = ' ' || c = '-'))

/-- `\b(?:\d[ -]*?){13,19}\b` -/
def cardPattern : Regex Char :=
  .seq .boundary (.seq (.between (cardDigit rules) 13 19) .boundary)

/-- Whether a search for one of `_SECRET_VALUE_PATTERNS` succeeds -/
def secretLike (text : String) : Bool :=
  [keyPattern, cardPattern rules].any (fun pattern => Regex.search rules.isWord pattern text.toList)

/-- `_normalized_key` -/
def normalizedKey (key : String) : String :=
  String.ofList (Words.strip '_' (Words.collapse isNameLetter '_' false (rules.lower key).toList))

/-- Whether a normalized key has a part; a token has to be a whole word. -/
def hasKeyPart (normalized part : String) : Bool :=
  if part = "token" then
    normalized = "token" || startsWith normalized "token_" ||
      "_token".toList.reverse.isPrefixOf normalized.toList.reverse || hasPart normalized "_token_"
  else hasPart normalized part

/-- `_key_is_denied` -/
def keyIsDenied (key : String) (deniedParts : List String) : Bool :=
  deniedParts.any (hasKeyPart (normalizedKey rules key))

end Guard

mutual
/-- `_walk` -/
def walk : Payload → List String → List (List String × Payload)
  | .leaf a, path => [(path, .leaf a)]
  | .seq items, path => (path, .seq items) :: walkItems items path 0
  | .obj fields, path => (path, .obj fields) :: walkFields fields path

def walkItems : List Payload → List String → Nat → List (List String × Payload)
  | [], _, _ => []
  | child :: items, path, index =>
    walk child (path ++ [toString index]) ++ walkItems items path (index + 1)

def walkFields : List (String × Payload) → List String → List (List String × Payload)
  | [], _ => []
  | (key, child) :: fields, path => walk child (path ++ [key]) ++ walkFields fields path
end

structure AgentBoundaryViolation where
  message : String
  deriving DecidableEq, Repr

section Guard

variable (rules : TextRules)

/-- The checks of the key that a path ends with -/
def checkKey (sellerVisible : Bool) (path : List String) (key : String) :
    Except AgentBoundaryViolation Unit :=
  let location := String.intercalate "." path
  if keyIsDenied rules key secretKeyParts then
    .error ⟨"model payload contains forbidden secret field at " ++ location⟩
  else if sellerVisible && keyIsDenied rules key sellerDeniedKeyParts then
    .error ⟨"seller-visible payload contains buyer-private field at " ++ location⟩
  else if !sellerVisible && keyIsDenied rules key buyerDeniedKeyParts then
    .error ⟨"buyer-visible payload contains seller-private field at " ++ location⟩
  else .ok ()

/-- The check of a value: of a string only -/
def checkValue (path : List String) : Payload → Except AgentBoundaryViolation Unit
  | .leaf (.str s) =>
    let location := String.intercalate "." path
    if secretLike rules s then
      .error ⟨"model payload contains a credential or payment-card-like value at " ++
        (if location = "" then "<root>" else location)⟩
    else .ok ()
  | _ => .ok ()

/-- The body of the loop of `validate_agent_payload` -/
def checkItem (sellerVisible : Bool) (item : List String × Payload) :
    Except AgentBoundaryViolation Unit := do
  match item.1.getLast? with
  | some key => checkKey rules sellerVisible item.1 key
  | none => .ok ()
  checkValue rules item.1 item.2

def validateAgentPayload (payload : Payload) (sellerVisible : Bool) :
    Except AgentBoundaryViolation Unit :=
  forM (walk payload []) (checkItem rules sellerVisible)

end Guard

/-! ## Names in a key -/

/-- The names that the payload of a side may not have in its keys -/
def deniedNames (sellerVisible : Bool) : List String :=
  secretKeyParts ++ if sellerVisible then sellerDeniedKeyParts else buyerDeniedKeyParts

section Names

variable {rules : TextRules}

variable (rules) in
/-- The words of a key, in lower case -/
def keyWords (key : String) : List (List Char) :=
  Words.words isNameLetter (rules.lower key).toList

variable (rules) in
/-- The words of the name come in a row among the words of the key. -/
def Named (key name : String) : Prop :=
  name.toList.splitOn '_' <:+: keyWords rules key

instance decidableNamed (key name : String) : Decidable (Named rules key name) :=
  inferInstanceAs (Decidable (_ <:+: _))

theorem normalizedKey_toList (key : String) :
    (normalizedKey rules key).toList = Words.joined '_' (keyWords rules key) := by
  unfold normalizedKey keyWords
  rw [String.toList_ofList]
  exact Words.strip_collapse (by decide) _

theorem hasKeyPart_of_ne {normalized part : String} (h : part ≠ "token") :
    hasKeyPart normalized part = true ↔ part.toList <:+: normalized.toList := by
  unfold hasKeyPart
  rw [if_neg h, hasPart_iff]

theorem not_underscore_of_mem_keyWords {key : String} :
    ∀ w ∈ keyWords rules key, w ≠ [] ∧ '_' ∉ w := by
  intro w hw
  have hletters := Words.keep_of_mem_words hw
  refine ⟨Words.ne_nil_of_mem_filter hw, fun hunderscore => ?_⟩
  exact absurd (hletters '_' hunderscore).2 (by decide)

theorem hasKeyPart_token {key : String} :
    hasKeyPart (normalizedKey rules key) "token" = true ↔ Named rules key "token" := by
  have hwords : "token".toList.splitOn '_' = ["token".toList] := by decide
  have hjoined : normalizedKey rules key = "token" ↔
      Words.joined '_' (keyWords rules key) = "token".toList := by
    rw [← normalizedKey_toList, String.toList_inj]
  unfold Named
  rw [hwords, List.singleton_infix_iff,
    Words.mem_iff_joined (fun w hw => (not_underscore_of_mem_keyWords w hw).2)
      (by decide) (by decide)]
  unfold hasKeyPart
  simp only [if_true, Bool.or_eq_true, decide_eq_true_eq, hjoined, startsWith, hasPart_iff,
    List.isPrefixOf_iff_prefix, List.reverse_prefix, normalizedKey_toList, or_assoc]
  exact Iff.rfl

theorem hasKeyPart_of_named {key name : String} (h : Named rules key name) :
    hasKeyPart (normalizedKey rules key) name = true := by
  by_cases htoken : name = "token"
  · rw [htoken] at h ⊢
    exact (hasKeyPart_token).mpr h
  · have hname := @List.intercalate_splitOn _ name.toList _ _ '_'
    rw [hasKeyPart_of_ne htoken, normalizedKey_toList, ← hname]
    exact Words.joined_infix (List.splitOn_ne_nil _ _) h

theorem mem_normalizedKey {key : String} {c : Char} (h : c ∈ (normalizedKey rules key).toList) :
    c ∈ (rules.lower key).toList ∨ c = '_' := by
  rw [normalizedKey_toList] at h
  rcases Words.mem_joined h with ⟨w, hw, hc⟩ | hc
  · exact .inl (Words.keep_of_mem_words hw c hc).1
  · exact .inr hc

theorem mem_of_hasKeyPart {normalized part : String} (h : hasKeyPart normalized part = true) {c : Char}
    (hc : c ∈ part.toList) : c ∈ normalized.toList := by
  by_cases htoken : part = "token"
  · subst htoken
    unfold hasKeyPart at h
    simp only [if_true, Bool.or_eq_true, decide_eq_true_eq, startsWith, hasPart_iff,
      List.isPrefixOf_iff_prefix, List.reverse_prefix, or_assoc] at h
    have hbefore : "token".toList ⊆ "token_".toList := by decide
    have hafter : "token".toList ⊆ "_token".toList := by decide
    have hwithin : "token".toList ⊆ "_token_".toList := by decide
    rcases h with rfl | h | h | h
    · exact hc
    · exact h.subset (hbefore hc)
    · exact h.subset (hafter hc)
    · exact h.subset (hwithin hc)
  · exact ((hasKeyPart_of_ne htoken).mp h).subset hc

theorem isDigit_of_mem_lower {n : Nat} {c : Char} (h : c ∈ (rules.lower (toString n)).toList) :
    c.isDigit = true := by
  have hdigits : ∀ d ∈ (toString n).toList, d.isDigit = true := by
    intro d hd
    exact Nat.isDigit_of_mem_toDigits (b := 10) (by decide) (by decide) (n := n) (by simpa using hd)
  have hrange : ∀ d : Char, d.isDigit = true → 48 ≤ d.toNat ∧ d.toNat ≤ 57 := by
    intro d hd
    have hbounds : (decide (d.val ≥ '0'.val) && decide (d.val ≤ '9'.val)) = true := hd
    simp only [Bool.and_eq_true, decide_eq_true_eq] at hbounds
    exact hbounds
  rw [rules.lower_ascii _ (fun d hd => by have := hrange d (hdigits d hd); omega)] at h
  unfold Runtime.lowerAscii at h
  rw [String.toList_ofList] at h
  obtain ⟨d, hd, rfl⟩ := List.mem_map.mp h
  have hlower : d.isUpper = false := by
    have hbounds := hrange d (hdigits d hd)
    rw [Bool.eq_false_iff]
    intro hupper
    have hletter : decide (d.val ≥ 'A'.val ∧ d.val ≤ 'Z'.val) = true := hupper
    have hmore : 65 ≤ d.toNat := (of_decide_eq_true hletter).1
    omega
  rw [if_neg (by rw [hlower]; decide)]
  exact hdigits d hd

theorem hasKeyPart_index {index : Nat} {sellerVisible : Bool} :
    ∀ name ∈ deniedNames sellerVisible,
      hasKeyPart (normalizedKey rules (toString index)) name = false := by
  intro name hname
  have hnames : (deniedNames sellerVisible).all
      (fun name => name.toList.any (fun c => !c.isDigit && c != '_')) = true := by
    cases sellerVisible <;> decide
  obtain ⟨c, hc, hletter⟩ := List.any_eq_true.mp (List.all_eq_true.mp hnames name hname)
  simp only [Bool.and_eq_true, Bool.not_eq_true', bne_iff_ne] at hletter
  obtain ⟨hdigit, hunderscore⟩ := hletter
  rw [Bool.eq_false_iff]
  intro hpart
  rcases mem_normalizedKey (mem_of_hasKeyPart hpart hc) with hlower | hsep
  · rw [isDigit_of_mem_lower hlower] at hdigit
    cases hdigit
  · exact hunderscore hsep

end Names

/-! ## What the guard accepts -/

section Accepts

variable {rules : TextRules} {sellerVisible : Bool}

variable (rules) in
/-- A key has no part that is denied to the side. -/
def KeyFree (sellerVisible : Bool) (key : String) : Prop :=
  ∀ name ∈ deniedNames sellerVisible, hasKeyPart (normalizedKey rules key) name = false

theorem checkKey_eq_ok {path : List String} {key : String} :
    checkKey rules sellerVisible path key = .ok () ↔ KeyFree rules sellerVisible key := by
  have hdenied : ∀ parts, keyIsDenied rules key parts = false ↔
      ∀ name ∈ parts, hasKeyPart (normalizedKey rules key) name = false := by
    intro parts
    simp [keyIsDenied]
  unfold KeyFree deniedNames checkKey
  simp only [List.mem_append, or_imp, forall_and, ← hdenied]
  cases hsecret : keyIsDenied rules key secretKeyParts with
  | true => simp
  | false =>
    cases sellerVisible with
    | true => cases hseller : keyIsDenied rules key sellerDeniedKeyParts <;> simp [hseller]
    | false => cases hbuyer : keyIsDenied rules key buyerDeniedKeyParts <;> simp [hbuyer]

theorem checkItem_eq_ok {path : List String} {value : Payload} :
    checkItem rules sellerVisible (path, value) = .ok () ↔
      (∀ key ∈ path.getLast?, KeyFree rules sellerVisible key) ∧ checkValue rules path value = .ok () := by
  unfold checkItem
  cases hlast : path.getLast? with
  | none => simp
  | some key => simp [Raising.check_bind_eq_ok, checkKey_eq_ok]

mutual
theorem walk_eq_ok : (value : Payload) → (path : List String) →
    ((∀ item ∈ walk value path, checkItem rules sellerVisible item = .ok ()) ↔
      (∀ key ∈ path.getLast?, KeyFree rules sellerVisible key) ∧
        (∀ key ∈ value.keys, KeyFree rules sellerVisible key) ∧
        ∀ s, .str s ∈ value.leaves → secretLike rules s = false)
  | .leaf a, path => by
    simp only [walk, List.forall_mem_singleton, checkItem_eq_ok, KeyedTree.keys, KeyedTree.leaves]
    cases a with
    | str s => cases hsecret : secretLike rules s <;> simp [checkValue, hsecret]
    | _ => simp [checkValue]
  | .seq items, path => by
    simp only [walk, List.forall_mem_cons, checkItem_eq_ok, checkValue, and_true, KeyedTree.keys,
      KeyedTree.leaves, walkItems_eq_ok items path 0]
  | .obj fields, path => by
    simp only [walk, List.forall_mem_cons, checkItem_eq_ok, checkValue, and_true, KeyedTree.keys,
      KeyedTree.leaves, walkFields_eq_ok fields path]

theorem walkItems_eq_ok : (items : List Payload) → (path : List String) → (index : Nat) →
    ((∀ item ∈ walkItems items path index, checkItem rules sellerVisible item = .ok ()) ↔
      (∀ key ∈ KeyedTree.seqKeys items, KeyFree rules sellerVisible key) ∧
        ∀ s, .str s ∈ KeyedTree.seqLeaves items → secretLike rules s = false)
  | [], _, _ => by simp [walkItems, KeyedTree.seqKeys, KeyedTree.seqLeaves]
  | child :: items, path, index => by
    have hindex : KeyFree rules sellerVisible (toString index) := hasKeyPart_index
    simp only [walkItems, walk_eq_ok child, walkItems_eq_ok items path,
      KeyedTree.seqKeys, KeyedTree.seqLeaves, List.mem_append, or_imp, forall_and]
    simp
    tauto

theorem walkFields_eq_ok : (fields : List (String × Payload)) → (path : List String) →
    ((∀ item ∈ walkFields fields path, checkItem rules sellerVisible item = .ok ()) ↔
      (∀ key ∈ KeyedTree.fieldKeys fields, KeyFree rules sellerVisible key) ∧
        ∀ s, .str s ∈ KeyedTree.fieldLeaves fields → secretLike rules s = false)
  | [], _ => by simp [walkFields, KeyedTree.fieldKeys, KeyedTree.fieldLeaves]
  | (key, child) :: fields, path => by
    simp only [walkFields, walk_eq_ok child, walkFields_eq_ok fields path,
      KeyedTree.fieldKeys, KeyedTree.fieldLeaves, List.mem_append, List.mem_cons, or_imp, forall_and,
      forall_eq]
    simp
    tauto
end

theorem validateAgentPayload_eq_ok {payload : Payload} :
    validateAgentPayload rules payload sellerVisible = .ok () ↔
      (∀ key ∈ payload.keys, KeyFree rules sellerVisible key) ∧
        ∀ s, .str s ∈ payload.leaves → secretLike rules s = false := by
  unfold validateAgentPayload
  rw [Raising.forM_eq_ok, walk_eq_ok]
  simp

end Accepts

/-! ## Numbers -/

section Numbers

variable {rules : TextRules}

theorem ascii_of_isDigit {c : Char} (h : c.isDigit = true) : rules.isDigit c = true ∧ rules.isWord c = true := by
  have hbounds : (decide (c.val ≥ '0'.val) && decide (c.val ≤ '9'.val)) = true := h
  simp only [Bool.and_eq_true, decide_eq_true_eq] at hbounds
  have hsmall : c.toNat < 128 := lt_of_le_of_lt hbounds.2 (by decide)
  refine ⟨by rw [rules.isDigit_ascii c hsmall]; exact h, ?_⟩
  rw [rules.isWord_ascii c hsmall, Char.isAlphanum, h, Bool.or_true, Bool.true_or]

theorem ends_cardPattern {before rest : List Char} (h : ∀ c ∈ rest, c.isDigit = true) :
    (∃ e, e ∈ Regex.ends rules.isWord (cardPattern rules) (before, rest)) ↔
      Regex.atBoundary rules.isWord (before, rest) = true ∧ 13 ≤ rest.length ∧ rest.length ≤ 19 := by
  have hdigit : ∀ c ∈ rest, rules.isDigit c = true := fun c hc => (ascii_of_isDigit (h c hc)).1
  have htimes : ∀ n, Regex.times (Regex.ends rules.isWord (cardDigit rules)) n (before, rest) =
      if n ≤ rest.length then [((rest.take n).reverse ++ before, rest.drop n)] else [] := by
    intro n
    apply Regex.times_one hdigit
    intro before rest' hsuffix
    apply Regex.ends_one_many
    intro c hc
    have hc := h c (hsuffix.subset hc)
    simp only [Bool.or_eq_false_iff, decide_eq_false_iff_not]
    constructor <;> rintro rfl <;> revert hc <;> decide
  -- after some of the digits, a boundary is where no digit is left
  have hboundary : ∀ n, 0 < n → n ≤ rest.length →
      (Regex.atBoundary rules.isWord ((rest.take n).reverse ++ before, rest.drop n) = true ↔
        n = rest.length) := by
    intro n hpos hle
    have htaken : rest.take n ≠ [] := by
      rw [← List.length_pos_iff, List.length_take]
      omega
    have hlast : ((rest.take n).reverse ++ before).head?.any rules.isWord = true := by
      rw [List.head?_append_of_ne_nil _ (by simpa using htaken), List.head?_reverse,
        List.getLast?_eq_some_getLast htaken]
      exact (ascii_of_isDigit (h _ (List.mem_of_mem_take (List.getLast_mem htaken)))).2
    have hnext : (rest.drop n).head?.any rules.isWord = true ↔ n ≠ rest.length := by
      cases hdrop : rest.drop n with
      | nil =>
        have hlength := congrArg List.length hdrop
        rw [List.length_drop, List.length_nil] at hlength
        simp
        omega
      | cons c later =>
        have hc : c ∈ rest := List.mem_of_mem_drop (hdrop ▸ List.mem_cons_self)
        have hlength := congrArg List.length hdrop
        rw [List.length_drop, List.length_cons] at hlength
        have hword : rules.isWord c = true := (ascii_of_isDigit (h c hc)).2
        simp [hword]
        omega
    unfold Regex.atBoundary
    rw [hlast]
    cases hdrop : (rest.drop n).head?.any rules.isWord with
    | true => simpa using hnext.mp hdrop
    | false =>
      simp only [Bool.true_bne, Bool.not_false, true_iff]
      by_contra hne
      rw [hnext.mpr hne] at hdrop
      cases hdrop
  unfold cardPattern
  simp only [Regex.mem_ends_seq, Regex.mem_ends_boundary, Regex.mem_ends_between]
  constructor
  · rintro ⟨_, _, ⟨rfl, hstart⟩, reached, ⟨n, ⟨hlo, hhi⟩, hreached⟩, -, hend⟩
    rw [htimes] at hreached
    split at hreached
    · next hle =>
      rw [List.mem_singleton] at hreached
      subst hreached
      have hall := (hboundary n (by omega) hle).mp hend
      exact ⟨hstart, by omega, by omega⟩
    · cases hreached
  · rintro ⟨hstart, hlo, hhi⟩
    refine ⟨_, _, ⟨rfl, hstart⟩, _, ⟨rest.length, ⟨hlo, hhi⟩, ?_⟩, rfl,
      (hboundary rest.length (by omega) le_rfl).mpr rfl⟩
    rw [htimes, if_pos le_rfl]
    exact List.mem_singleton_self _

/-- The card pattern finds the digits of a number, with or without a sign, if they are 13 to 19. -/
theorem search_cardPattern {start digits : List Char} (hstart : start = [] ∨ start = ['-'])
    (h : ∀ c ∈ digits, c.isDigit = true) :
    Regex.search rules.isWord (cardPattern rules) (start ++ digits) = true ↔
      13 ≤ digits.length ∧ digits.length ≤ 19 := by
  have hminus : rules.isWord '-' = false := by
    rw [rules.isWord_ascii _ (by decide)]
    decide
  have hword : ∀ c ∈ digits, rules.isWord c = true := fun c hc => (ascii_of_isDigit (h c hc)).2
  rw [Regex.search_eq_true]
  constructor
  · rintro ⟨c, hc, hends⟩
    obtain ⟨seen, rest, htext, rfl⟩ := Regex.mem_cursors.mp hc
    rw [List.append_nil] at hends
    have hat : Regex.atBoundary rules.isWord (seen.reverse, rest) = true := by
      obtain ⟨e, he⟩ := hends
      simp only [cardPattern, Regex.mem_ends_seq, Regex.mem_ends_boundary] at he
      obtain ⟨_, ⟨rfl, hat⟩, -⟩ := he
      exact hat
    rcases List.append_eq_append_iff.mp htext with ⟨more, rfl, rfl⟩ | ⟨more, rfl, rfl⟩
    · have hrest : ∀ c ∈ rest, c.isDigit = true := fun c hc => h c (List.mem_append_right more hc)
      obtain ⟨-, hlo, hhi⟩ := (ends_cardPattern hrest).mp hends
      cases more using List.reverseRecOn with
      | nil => exact ⟨hlo, hhi⟩
      | append_singleton more d =>
        -- between two digits there is no boundary
        cases rest with
        | nil => cases hlo
        | cons d' rest =>
          have hd := hword d (by simp)
          have hd' := hword d' (by simp)
          simp [Regex.atBoundary, hd, hd'] at hat
    · cases more with
      | nil => exact ((ends_cardPattern h).mp hends).2
      | cons d more =>
        -- neither is there one before a sign
        rcases hstart with hstart | hstart
        · simp at hstart
        · cases seen with
          | nil =>
            simp only [List.nil_append, List.cons.injEq] at hstart
            simp [Regex.atBoundary, hstart.1, hminus] at hat
          | cons a seen => simp at hstart
  · rintro ⟨hlo, hhi⟩
    refine ⟨(start.reverse, digits), Regex.mem_cursors.mpr ⟨start, digits, rfl, by simp⟩, ?_⟩
    rw [ends_cardPattern h]
    refine ⟨?_, hlo, hhi⟩
    cases digits with
    | nil => cases hlo
    | cons d digits =>
      rcases hstart with rfl | rfl <;> simp [Regex.atBoundary, hword d, hminus]

theorem secretLike_int {n : Int} :
    secretLike rules (toString n) = true ↔ 10 ^ 12 ≤ n.natAbs ∧ n.natAbs < 10 ^ 19 := by
  obtain ⟨start, hstart, htext⟩ : ∃ start, (start = [] ∨ start = ['-']) ∧
      (toString n).toList = start ++ Nat.toDigits 10 n.natAbs := by
    cases n with
    | ofNat m => exact ⟨[], .inl rfl, by simp [toString, Int.repr, Nat.repr]⟩
    | negSucc m => exact ⟨['-'], .inr rfl, by simp [toString, Int.repr, Nat.repr]⟩
  have hdigits : ∀ c ∈ Nat.toDigits 10 n.natAbs, c.isDigit = true :=
    fun c hc => Nat.isDigit_of_mem_toDigits (by decide) (by decide) hc
  have hkey : Regex.search rules.isWord keyPattern (start ++ Nat.toDigits 10 n.natAbs) = false := by
    rw [Bool.eq_false_iff]
    intro hsearch
    obtain ⟨c, hc, hs⟩ := Regex.exists_of_search_one hsearch
    rw [decide_eq_true_eq] at hs
    subst hs
    rcases List.mem_append.mp hc with hc | hc
    · rcases hstart with rfl | rfl <;> revert hc <;> decide
    · exact absurd (hdigits _ hc) (by decide)
  have hlong : 13 ≤ (Nat.toDigits 10 n.natAbs).length ↔ 10 ^ 12 ≤ n.natAbs := by
    rw [← not_lt, ← not_lt, not_iff_not, Nat.lt_succ_iff]
    exact Nat.length_toDigits_le_iff (by decide) (by decide)
  have hshort : (Nat.toDigits 10 n.natAbs).length ≤ 19 ↔ n.natAbs < 10 ^ 19 :=
    Nat.length_toDigits_le_iff (by decide) (by decide)
  unfold secretLike
  rw [htext]
  simp only [List.any_cons, List.any_nil, Bool.or_false, hkey, Bool.false_or,
    search_cardPattern hstart hdigits, hlong, hshort]

end Numbers

/-- The rules for ASCII text -/
def TextRules.ascii : TextRules where
  toLowering := .ascii
  isWord c := c.isAlphanum || c = '_'
  isDigit := Char.isDigit
  isWord_ascii _ _ := rfl
  isDigit_ascii _ _ := rfl

/-! ## The boundary -/

section Boundary

variable {rules : TextRules} {sellerVisible : Bool} {payload : Payload}

/-- The text of a string or a number in JSON -/
def Scalar.text : Scalar → Option String
  | .str s => some s
  | .int n => some (toString n)
  | .float text => some text
  | _ => none

/-- The keys, the strings and the numbers of the JSON text of a payload -/
def sentTexts (payload : Payload) : List String :=
  payload.keys ++ payload.leaves.filterMap Scalar.text

variable (rules) in
/-- No key names what is denied to the side, and no key, string or number looks like a secret. -/
def NothingSecret (sellerVisible : Bool) (payload : Payload) : Prop :=
  (∀ key ∈ payload.keys, ∀ name ∈ deniedNames sellerVisible, ¬ Named rules key name) ∧
    ∀ text ∈ sentTexts payload, secretLike rules text = false

/-- A payload whose keys name nothing denied and whose strings look like no secret is accepted exactly
    if no key has a denied part in the middle of its words. -/
theorem accepts_iff
    (hnames : ∀ key ∈ payload.keys, ∀ name ∈ deniedNames sellerVisible, ¬ Named rules key name)
    (hstrings : ∀ s, .str s ∈ payload.leaves → secretLike rules s = false) :
    validateAgentPayload rules payload sellerVisible = .ok () ↔
      ∀ key ∈ payload.keys, ∀ part ∈ deniedNames sellerVisible, part ≠ "token" →
        hasPart (normalizedKey rules key) part = false := by
  rw [validateAgentPayload_eq_ok, and_iff_left hstrings]
  refine forall₂_congr fun key hkey => forall₂_congr fun part hpart => ?_
  by_cases htoken : part = "token"
  · subst htoken
    have hfree : hasKeyPart (normalizedKey rules key) "token" = false := by
      rw [Bool.eq_false_iff]
      exact fun htoken => hnames key hkey "token" hpart ((hasKeyPart_token).mp htoken)
    simp [hfree]
  · unfold hasKeyPart
    simp [htoken]

/-- A payload about a budget, which no part of a denied name is in -/
theorem accepts_iff_sample :
    let payload : Payload := .obj [("budget", .leaf (.str "quarterly"))]
    validateAgentPayload .ascii payload false = .ok () := by
  intro payload
  have hnames : ∀ key ∈ payload.keys, ∀ name ∈ deniedNames false, ¬ Named .ascii key name := by
    decide
  have hstrings : ∀ s, .str s ∈ payload.leaves → secretLike .ascii s = false := by
    intro s hs
    simp only [payload, KeyedTree.leaves, KeyedTree.fieldLeaves, List.append_nil, List.mem_singleton,
      Scalar.str.injEq] at hs
    rw [hs]
    decide
  exact (accepts_iff hnames hstrings).mpr (by decide)

/-- `company` has the letters of `pan`: a payload about a company is refused. -/
theorem company_refused :
    let payload : Payload := .obj [("company", .leaf (.str "Acme"))]
    ((∀ key ∈ payload.keys, ∀ name ∈ deniedNames true ++ deniedNames false, ¬ Named .ascii key name) ∧
        ∀ s, .str s ∈ payload.leaves → secretLike .ascii s = false) ∧
      ∀ sellerVisible, validateAgentPayload .ascii payload sellerVisible =
        .error ⟨"model payload contains forbidden secret field at company"⟩ := by
  intro payload
  refine ⟨⟨by decide, ?_⟩, ?_⟩
  · intro s hs
    simp only [payload, KeyedTree.leaves, KeyedTree.fieldLeaves, List.append_nil, List.mem_singleton,
      Scalar.str.injEq] at hs
    rw [hs]
    decide
  · intro sellerVisible
    cases sellerVisible <;> decide

end Boundary

end SiraAgents
