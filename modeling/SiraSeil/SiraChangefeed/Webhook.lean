-- SUMMARY: The webhook of the changefeed: exactly when it answers, and that it sends one message per event of an authorized batch of valid events and none otherwise.
import SiraSeil.SiraChangefeed.Handler

/-!
# The webhook

`lambda_handler` of `services/changefeed/sira_changefeed/handler.py`, with its checks of the header
and of the body. `TypeError` and `ValueError` are caught around the body only.
-/

namespace SiraChangefeed

open Domain PythonJson PyStr Raising

inductive Raised
  | typeError
  | valueError
  | recursionError
  deriving DecidableEq

/-- The interpreter that runs the webhook. Its limits are part of it: `json.loads` and `str` raise on
    values that are nested too deep or hold too long integers. -/
structure Interpreter where
  platform : Platform
  lower : PyStr → PyStr
  loads : PyStr → Except Raised JsonValue
  text : JsonValue → Except Raised PyStr
  loads_ok : ∀ raw document, loads raw = .ok document →
    PythonJson.loads platform.float raw = some document
  text_ok : ∀ value s, text value = .ok s → s = str platform value
  text_str : ∀ s, text (.leaf (.str s)) = .ok s
  lower_ascii : ∀ s : String, (∀ c ∈ s.toList, c.toNat < 128) →
    lower (lit s) = lit (Runtime.lowerAscii s)

/-- What the environment configures -/
structure Settings where
  /-- `_webhook_token()` -/
  token : PyStr
  queueUrl : PyStr

structure Response where
  statusCode : Nat
  result : String
  accepted : Nat := 0
  deriving DecidableEq

/-- The arguments of `send_message` -/
structure Message where
  queueUrl : PyStr
  messageBody : PyStr
  messageGroupId : PyStr
  messageDeduplicationId : PyStr
  eventType : PyStr := lit "PRODUCT_BUNDLE_CHANGED_HINT"

/-! ## Texts and bytes -/

attribute [local instance] lawfulBEq_codePoint in
/-- `str.encode` -/
def encode (s : PyStr) : Except Raised ByteArray :=
  if ∀ c ∈ s, Scalar c then .ok (String.ofList (s.map (fun c => Char.ofNat c.val))).toByteArray
  else .error .valueError

/-- `bytes.decode("utf-8")` -/
def decode (raw : ByteArray) : Except Raised PyStr :=
  match String.fromUTF8? raw with
  | some s => .ok (ofChars s.toList)
  | none => .error .valueError

/-- `str.isascii` -/
def Ascii (s : PyStr) : Prop := ∀ c ∈ s, c.val < 128

instance (s : PyStr) : Decidable (Ascii s) := inferInstanceAs (Decidable (∀ c ∈ s, c.val < 128))

/-- The value of a character of the base64 alphabet -/
def sextet (c : CodePoint) : Option Nat :=
  if 65 ≤ c.val ∧ c.val ≤ 90 then some (c.val - 65)
  else if 97 ≤ c.val ∧ c.val ≤ 122 then some (c.val - 71)
  else if 48 ≤ c.val ∧ c.val ≤ 57 then some (c.val + 4)
  else if c = code '+' then some 62
  else if c = code '/' then some 63
  else none

/-- `binascii.a2b_base64` in strict mode: the place in the group of four, the bits that are left of the
    last character, the number of pads, and whether the padding has started -/
def a2bBase64 (place left pads : Nat) (padding : Bool) : PyStr → Option (List UInt8)
  | [] => if place = 0 then some [] else none
  | c :: rest =>
    if c = code '=' then
      if 2 ≤ place ∧ 4 ≤ place + (pads + 1) then
        if rest = [] then some [] else none
      else a2bBase64 place left (if 2 ≤ place then pads + 1 else pads) true rest
    else
      match sextet c with
      | none => none
      | some n =>
        if padding then none
        else
          match place with
          | 0 => a2bBase64 1 n 0 false rest
          | 1 => (a2bBase64 2 (n % 16) 0 false rest).map (UInt8.ofNat (left * 4 + n / 16) :: ·)
          | 2 => (a2bBase64 3 (n % 4) 0 false rest).map (UInt8.ofNat (left * 16 + n / 4) :: ·)
          | _ => (a2bBase64 0 0 0 false rest).map (UInt8.ofNat (left * 64 + n) :: ·)

/-- `base64.b64decode` with validation -/
def b64decode (s : PyStr) : Except Raised ByteArray :=
  if s.head? = some (code '=') then .error .valueError
  else
    match a2bBase64 0 0 0 false s with
    | some bytes => .ok ⟨bytes.toArray⟩
    | none => .error .valueError

/-! ## The handler -/

section Handler

variable (interpreter : Interpreter) (settings : Settings)

/-- `hmac.compare_digest` of two texts, which takes ASCII only -/
def compareDigest (a b : PyStr) : Except Raised Bool :=
  if Ascii a ∧ Ascii b then .ok (decide (a = b))
  else .error .typeError

/-- The headers under their names in small letters -/
def normalized (headers : List (PyStr × JsonValue)) : Except Raised (List (PyStr × PyStr)) :=
  headers.mapM (fun header => do
    let value ← interpreter.text header.2
    return (interpreter.lower header.1, value))

/-- The authorization header; of two headers under one name the later one counts. -/
def supplied (headers : List (PyStr × JsonValue)) : Except Raised PyStr :=
  (fun headers => (headers.reverse.lookup (lit "authorization")).getD []) <$>
    normalized interpreter headers

/-- The header that carries a token -/
def basic (token : PyStr) : PyStr := lit "Basic " ++ token

/-- `_authorized` -/
def authorized (event : List (PyStr × JsonValue)) : Except Raised Bool :=
  match get event "headers" with
  | .obj headers => do compareDigest (← supplied interpreter headers) (basic settings.token)
  | _ => .ok false

/-- `_MAX_BODY_BYTES` -/
def maxBodyBytes : Nat := 1024 * 1024

/-- The bytes of a body, which may be in base64 -/
def bodyBytes (event : List (PyStr × JsonValue)) (body : PyStr) : Except Raised ByteArray :=
  match get event "isBase64Encoded" with
  | .leaf (.bool true) => b64decode body
  | _ => encode body

/-- `_body` -/
def body (event : List (PyStr × JsonValue)) : Except Raised PyStr :=
  match get event "body" with
  | .leaf (.str body) => do
    let raw ← bodyBytes event body
    if raw.size = 0 ∨ maxBodyBytes < raw.size then throw .valueError else decode raw
  | _ => .error .valueError

/-- The product id of an item that passes the checks before `str(key[0])` -/
def textedKey : JsonValue → Option JsonValue
  | .obj fields =>
    match get fields "topic", get fields "key", get fields "after" with
    | .leaf (.str topic), .seq [first], .leaf .null => if topic ∈ topics then some first else none
    | .leaf (.str topic), .seq [first], .obj _ => if topic ∈ topics then some first else none
    | _, _, _ => none
  | _ => none

/-- What the checks of `_hints` raise -/
def HandlerError.raised : HandlerError → Raised
  | .typeError => .typeError
  | .valueError _ => .valueError

/-- One item, whose product id may have no text within the limits -/
def readItem (item : JsonValue) : Except Raised Event := do
  match textedKey item with
  | some first =>
    let _ ← interpreter.text first
    (readEvent interpreter.platform item).mapError HandlerError.raised
  | none => (readEvent interpreter.platform item).mapError HandlerError.raised

/-- `_hints`, before the events become hints -/
def readBatch (document : JsonValue) : Except Raised (List Event) := do
  (← (batch document).mapError HandlerError.raised).mapM (readItem interpreter)

/-- What is done inside the `try` -/
def readRequest (event : List (PyStr × JsonValue)) : Except Raised (List Event) := do
  readBatch interpreter (← interpreter.loads (← body event))

/-- The message of a hint -/
def Hint.message (queueUrl : PyStr) (hint : Hint) : Message where
  queueUrl := queueUrl
  messageBody := hint.body
  messageGroupId := hint.aggregateId
  messageDeduplicationId := hint.sourceEventId

/-- `lambda_handler` behind the check of the header -/
def respond (event : List (PyStr × JsonValue)) (allowed : Bool) :
    Except Raised (Response × List Message) :=
  if allowed then
    match readRequest interpreter event with
    | .ok events =>
      let hints := events.map (Event.hint interpreter.platform)
      .ok ({ statusCode := 202, result := "accepted", accepted := hints.length },
        hints.map (Hint.message settings.queueUrl))
    | .error .recursionError => .error .recursionError
    | .error _ => .ok ({ statusCode := 400, result := "invalid_changefeed_payload" }, [])
  else .ok ({ statusCode := 401, result := "unauthorized" }, [])

/-- `lambda_handler`: the response, and the messages that were sent -/
def lambdaHandler (event : List (PyStr × JsonValue)) : Except Raised (Response × List Message) := do
  let token ← encode settings.token
  if token.size < 32 ∨ settings.queueUrl = [] then
    return ({ statusCode := 503, result := "bridge_not_configured" }, [])
  else respond interpreter settings event (← authorized interpreter settings event)

end Handler

/-! ## When the webhook answers -/

section Answers

variable {interpreter : Interpreter} {settings : Settings} {event : List (PyStr × JsonValue)}

/-- The token is long enough, and there is a queue. -/
def Configured (settings : Settings) : Prop :=
  ∃ token, encode settings.token = .ok token ∧ 32 ≤ token.size ∧ settings.queueUrl ≠ []

/-- The authorization header of the event is the token. -/
def Authorized (interpreter : Interpreter) (settings : Settings) (event : List (PyStr × JsonValue)) :
    Prop :=
  ∃ headers, get event "headers" = .obj headers ∧
    supplied interpreter headers = .ok (basic settings.token)

/-- The body of the event is a batch of these events, and each of them is valid. -/
def Holds (interpreter : Interpreter) (event : List (PyStr × JsonValue)) (events : List Event) : Prop :=
  ∃ raw document, body event = .ok raw ∧ interpreter.loads raw = .ok document ∧
    readBatch interpreter document = .ok events

/-- An item, behind valid ones only, has a product id that is nested too deep for `str`. -/
def DeepKey (interpreter : Interpreter) (document : JsonValue) : Prop :=
  ∃ before item after first, batch document = .ok (before ++ item :: after) ∧
    (∀ i ∈ before, ∃ e, readItem interpreter i = .ok e) ∧ textedKey item = some first ∧
    interpreter.text first = .error .recursionError

/-- What the webhook needs in order to answer an event -/
structure Answerable (interpreter : Interpreter) (settings : Settings)
    (event : List (PyStr × JsonValue)) : Prop where
  encodable : ∀ c ∈ settings.token, Scalar c
  /-- The headers have texts, and both sides of the comparison are ASCII. -/
  headers : Configured settings → ∀ headers, get event "headers" = .obj headers →
    Ascii settings.token ∧ ∃ value, supplied interpreter headers = .ok value ∧ Ascii value
  /-- The body of an authorized event is not nested beyond the recursion limit. -/
  nesting : Configured settings → Authorized interpreter settings event → ∀ raw,
    body event = .ok raw → interpreter.loads raw ≠ .error .recursionError ∧
      ∀ document, interpreter.loads raw = .ok document → ¬ DeepKey interpreter document

/-- The webhook answers with one of its statuses. It sends one message per event in their order if it is
    configured, the event is authorized and its batch holds valid events only, and none otherwise. -/
def Answers (interpreter : Interpreter) (settings : Settings) (event : List (PyStr × JsonValue)) : Prop :=
  ∃ response messages, lambdaHandler interpreter settings event = .ok (response, messages) ∧
    response.statusCode ∈ [202, 400, 401, 503] ∧
    ((∃ events, Configured settings ∧ Authorized interpreter settings event ∧
        Holds interpreter event events ∧ response.statusCode = 202 ∧
        messages = events.map (fun e =>
          (e.hint interpreter.platform).message settings.queueUrl)) ∨
      (¬ ∃ events, Configured settings ∧ Authorized interpreter settings event ∧
        Holds interpreter event events) ∧ messages = [])

theorem encode_eq_ok {s : PyStr} {raw : ByteArray} (h : encode s = .ok raw) :
    ∀ c ∈ s, Scalar c := by
  unfold encode at h
  split at h
  · assumption
  · cases h

theorem compareDigest_eq_ok {a b : PyStr} {equal : Bool} :
    compareDigest a b = .ok equal ↔ (Ascii a ∧ Ascii b) ∧ equal = decide (a = b) := by
  unfold compareDigest
  split
  next hascii =>
    constructor
    · intro h
      cases h
      exact ⟨hascii, rfl⟩
    · rintro ⟨-, rfl⟩
      rfl
  next hascii => simp only [reduceCtorEq, hascii, false_and]

theorem chars_lt_of_all {s : String} (h : s.toList.all (fun c => decide (c.toNat < 128)) = true) :
    ∀ c ∈ s.toList, c.toNat < 128 :=
  fun c hc => of_decide_eq_true (List.all_eq_true.mp h c hc)

theorem ascii_basic (token : PyStr) : Ascii (basic token) ↔ Ascii token := by
  have hscheme : Ascii (lit "Basic ") := by
    have hchars : ∀ d ∈ "Basic ".toList, d.toNat < 128 := chars_lt_of_all (by decide)
    intro c hc
    obtain ⟨d, hd, rfl⟩ := List.mem_map.mp hc
    rw [code_val]
    exact hchars d hd
  constructor
  · exact fun h c hc => h c (List.mem_append_right _ hc)
  · intro h c hc
    rcases List.mem_append.mp hc with hfirst | hlater
    · exact hscheme c hfirst
    · exact h c hlater

theorem raised_ne_recursionError (e : HandlerError) : e.raised ≠ .recursionError := by
  cases e <;> simp [HandlerError.raised]

theorem mapError_ne_recursionError {α : Type} {x : Except HandlerError α} :
    x.mapError HandlerError.raised ≠ .error .recursionError := by
  cases x with
  | ok a => simp [Except.mapError]
  | error e => simpa [Except.mapError] using raised_ne_recursionError e

theorem readItem_recursion {item : JsonValue} :
    readItem interpreter item = .error .recursionError ↔
      ∃ first, textedKey item = some first ∧ interpreter.text first = .error .recursionError := by
  unfold readItem
  cases hkey : textedKey item with
  | none => simpa using mapError_ne_recursionError
  | some first =>
    cases htext : interpreter.text first with
    | ok text => simpa [htext] using mapError_ne_recursionError
    | error raised => simp [htext]

theorem readBatch_recursion {document : JsonValue} :
    readBatch interpreter document = .error .recursionError ↔ DeepKey interpreter document := by
  unfold readBatch DeepKey
  cases hbatch : batch document with
  | error e =>
    constructor
    · intro h
      exact absurd h (@mapError_ne_recursionError _ (.error e))
    · rintro ⟨before, item, after, first, h, -⟩
      cases h
  | ok items =>
    refine mapM_eq_error.trans ?_
    simp only [readItem_recursion, Except.ok.injEq]
    constructor
    · rintro ⟨before, item, after, rfl, hbefore, first, hkey, htext⟩
      exact ⟨before, item, after, first, rfl, hbefore, hkey, htext⟩
    · rintro ⟨before, item, after, first, rfl, hbefore, hkey, htext⟩
      exact ⟨before, item, after, rfl, hbefore, first, hkey, htext⟩

theorem decode_ne_recursionError (raw : ByteArray) : decode raw ≠ .error .recursionError := by
  unfold decode
  split <;> simp

theorem encode_ne_recursionError (s : PyStr) : encode s ≠ .error .recursionError := by
  unfold encode
  split <;> simp

theorem b64decode_ne_recursionError (s : PyStr) : b64decode s ≠ .error .recursionError := by
  unfold b64decode
  split
  · simp
  · split <;> simp

/-- All that `_body` raises is caught. -/
theorem body_ne_recursionError : body event ≠ .error .recursionError := by
  unfold body
  split
  next text _ =>
    intro h
    rcases bind_eq_error.mp h with hraw | ⟨raw, -, hsize⟩
    · unfold bodyBytes at hraw
      split at hraw
      · exact b64decode_ne_recursionError text hraw
      · exact encode_ne_recursionError text hraw
    · split at hsize
      · cases hsize
      · exact decode_ne_recursionError raw hsize
  · simp

/-- What is done inside the `try` raises a `RecursionError` exactly if the body is nested too deep. -/
theorem readRequest_recursion :
    readRequest interpreter event = .error .recursionError ↔ ∃ raw, body event = .ok raw ∧
      (interpreter.loads raw = .error .recursionError ∨
        ∃ document, interpreter.loads raw = .ok document ∧ DeepKey interpreter document) := by
  have hbody := @body_ne_recursionError event
  unfold readRequest
  cases hraw : body event with
  | error raised =>
    rw [hraw] at hbody
    simpa using hbody
  | ok raw =>
    cases hloads : interpreter.loads raw with
    | error raised => simp [hloads]
    | ok document => simp [hloads, readBatch_recursion]

theorem readRequest_ok {events : List Event} :
    readRequest interpreter event = .ok events ↔ Holds interpreter event events := by
  unfold readRequest Holds
  cases body event with
  | error raised => simp
  | ok raw =>
    cases hloads : interpreter.loads raw with
    | error raised => simp [hloads]
    | ok document => simp [hloads]

/-- What `_authorized` returns, and when it returns -/
theorem authorized_eq_ok {allowed : Bool} :
    authorized interpreter settings event = .ok allowed ↔
      (∀ headers, get event "headers" = .obj headers → Ascii settings.token ∧
        ∃ value, supplied interpreter headers = .ok value ∧ Ascii value) ∧
      (allowed = true ↔ Authorized interpreter settings event) := by
  unfold authorized Authorized
  generalize basic settings.token = expected, ascii_basic settings.token = hexpected
  cases hheaders : get event "headers" with
  | leaf a => simp [eq_comm]
  | seq items => simp [eq_comm]
  | obj headers =>
    refine bind_eq_ok.trans ?_
    simp only [KeyedTree.obj.injEq, forall_eq', exists_eq_left', compareDigest_eq_ok]
    cases hsupplied : supplied interpreter headers with
    | error raised => simp
    | ok value =>
      simp only [Except.ok.injEq, exists_eq_left']
      constructor
      · rintro ⟨⟨hvalue, htoken⟩, rfl⟩
        exact ⟨⟨hexpected.mp htoken, hvalue⟩, decide_eq_true_iff⟩
      · rintro ⟨⟨htoken, hvalue⟩, hequal⟩
        exact ⟨⟨hvalue, hexpected.mpr htoken⟩,
          Bool.eq_iff_iff.mpr (hequal.trans decide_eq_true_iff.symm)⟩

theorem exists_respond {allowed : Bool} :
    (∃ answer, respond interpreter settings event allowed = .ok answer) ↔
      (allowed = true → readRequest interpreter event ≠ .error .recursionError) := by
  unfold respond
  cases allowed with
  | false => simp
  | true =>
    cases readRequest interpreter event with
    | ok events => simp
    | error raised => cases raised <;> simp

theorem respond_sends {allowed : Bool} {response : Response} {messages : List Message}
    (h : respond interpreter settings event allowed = .ok (response, messages)) :
    response.statusCode ∈ [202, 400, 401, 503] ∧
      ((∃ events, allowed = true ∧ Holds interpreter event events ∧ response.statusCode = 202 ∧
          messages = events.map (fun e => (e.hint interpreter.platform).message settings.queueUrl)) ∨
        (¬ ∃ events, allowed = true ∧ Holds interpreter event events) ∧ messages = []) := by
  unfold respond at h
  cases allowed with
  | false =>
    cases h
    exact ⟨by simp, .inr ⟨by simp, rfl⟩⟩
  | true =>
    simp only [if_true] at h
    cases hrequest : readRequest interpreter event with
    | ok events =>
      rw [hrequest] at h
      cases h
      refine ⟨by simp, .inl ⟨events, rfl, (readRequest_ok).mp hrequest, rfl, ?_⟩⟩
      rw [List.map_map]
      rfl
    | error raised =>
      have hrefused : ¬ ∃ events, true = true ∧ Holds interpreter event events := by
        rintro ⟨events, -, hholds⟩
        rw [(readRequest_ok).mpr hholds] at hrequest
        cases hrequest
      rw [hrequest] at h
      cases raised with
      | typeError =>
        cases h
        exact ⟨by simp, .inr ⟨hrefused, rfl⟩⟩
      | valueError =>
        cases h
        exact ⟨by simp, .inr ⟨hrefused, rfl⟩⟩
      | recursionError => cases h

theorem not_configured {token : ByteArray} (htoken : encode settings.token = .ok token)
    (h : token.size < 32 ∨ settings.queueUrl = []) : ¬ Configured settings := by
  rintro ⟨token', htoken', hlong, hqueue⟩
  cases htoken.symm.trans htoken'
  rcases h with hshort | hempty
  · exact absurd hlong (Nat.not_le.mpr hshort)
  · exact hqueue hempty

theorem compared_of_answer {answer : Response × List Message}
    (h : lambdaHandler interpreter settings event = .ok answer) (hconfigured : Configured settings) :
    ∃ allowed, authorized interpreter settings event = .ok allowed ∧
      respond interpreter settings event allowed = .ok answer := by
  obtain ⟨token, htoken, h⟩ := bind_eq_ok.mp h
  split at h
  next hunset => exact absurd hconfigured (not_configured htoken hunset)
  · exact bind_eq_ok.mp h

/-- The webhook answers exactly if the token can be encoded, the comparison of the header does not raise,
    and an authorized body is not nested too deep. Where it answers, it sends one message per event of an
    authorized batch of valid events, and none otherwise. -/
theorem answers_iff (interpreter : Interpreter) (settings : Settings)
    (event : List (PyStr × JsonValue)) :
    Answers interpreter settings event ↔ Answerable interpreter settings event := by
  constructor
  · rintro ⟨response, messages, h, -⟩
    obtain ⟨token, htoken, -⟩ := bind_eq_ok.mp h
    refine ⟨encode_eq_ok htoken, ?_, ?_⟩
    · intro hconfigured
      obtain ⟨allowed, hallowed, -⟩ := compared_of_answer h hconfigured
      exact ((authorized_eq_ok).mp hallowed).1
    · intro hconfigured hauthorized raw hraw
      obtain ⟨allowed, hallowed, hresponse⟩ := compared_of_answer h hconfigured
      have hrequest := (exists_respond).mp ⟨_, hresponse⟩ (((authorized_eq_ok).mp hallowed).2.mpr hauthorized)
      constructor
      · intro hloads
        exact hrequest ((readRequest_recursion).mpr ⟨raw, hraw, .inl hloads⟩)
      · intro document hloads hdeep
        exact hrequest ((readRequest_recursion).mpr ⟨raw, hraw, .inr ⟨document, hloads, hdeep⟩⟩)
  · rintro ⟨hencodable, hheaders, hnesting⟩
    have hencode : ∃ token, encode settings.token = .ok token := by
      unfold encode
      rw [if_pos hencodable]
      exact ⟨_, rfl⟩
    obtain ⟨token, htoken⟩ := hencode
    by_cases hunset : token.size < 32 ∨ settings.queueUrl = []
    · refine ⟨_, _, bind_eq_ok.mpr ⟨token, htoken, if_pos hunset⟩, by simp, .inr ⟨?_, rfl⟩⟩
      rintro ⟨events, hconfigured, -⟩
      exact not_configured htoken hunset hconfigured
    · have hconfigured : Configured settings := by
        refine ⟨token, htoken, Nat.not_lt.mp ?_, ?_⟩
        · exact fun hshort => hunset (.inl hshort)
        · exact fun hempty => hunset (.inr hempty)
      -- the header is compared, and what it allows is whether the event is authorized
      have hcompared : ∃ allowed, authorized interpreter settings event = .ok allowed ∧
          (allowed = true ↔ Authorized interpreter settings event) := by
        by_cases hallowed : Authorized interpreter settings event
        · exact ⟨true, (authorized_eq_ok).mpr ⟨hheaders hconfigured, by simpa using hallowed⟩,
            by simpa using hallowed⟩
        · exact ⟨false, (authorized_eq_ok).mpr ⟨hheaders hconfigured, by simpa using hallowed⟩,
            by simpa using hallowed⟩
      obtain ⟨allowed, hauthorized, hallowed⟩ := hcompared
      have hanswer : ∃ answer, respond interpreter settings event allowed = .ok answer := by
        refine (exists_respond).mpr ?_
        intro htrue hraised
        obtain ⟨raw, hraw, hdeep⟩ := (readRequest_recursion).mp hraised
        obtain ⟨hloads, hkeys⟩ := hnesting hconfigured (hallowed.mp htrue) raw hraw
        rcases hdeep with hraised | ⟨document, hdocument, hdeep⟩
        · exact hloads hraised
        · exact hkeys document hdocument hdeep
      obtain ⟨⟨response, messages⟩, hresponse⟩ := hanswer
      obtain ⟨hstatus, hsent⟩ := respond_sends hresponse
      have hrun : lambdaHandler interpreter settings event = .ok (response, messages) :=
        bind_eq_ok.mpr ⟨token, htoken, (if_neg hunset).trans
          (bind_eq_ok.mpr ⟨allowed, hauthorized, hresponse⟩)⟩
      refine ⟨response, messages, hrun, hstatus, ?_⟩
      simp only [hconfigured, true_and]
      simpa only [hallowed] using hsent

end Answers

/-- `str.lower` of an ASCII character -/
def lowerCode (c : CodePoint) : CodePoint :=
  if 65 ≤ c.val ∧ c.val ≤ 90 then Fin.ofNat 0x110000 (c.val + 32) else c

theorem lowerCode_lit {s : String} (h : ∀ c ∈ s.toList, c.toNat < 128) :
    (lit s).map lowerCode = lit (Runtime.lowerAscii s) := by
  have hchars : (List.range 128).all (fun n => decide (lowerCode (code (Char.ofNat n)) =
      code (if (Char.ofNat n).isUpper then Char.ofNat ((Char.ofNat n).toNat + 32) else Char.ofNat n))) =
        true := by
    decide
  unfold lit ofChars Runtime.lowerAscii
  rw [String.toList_ofList, List.map_map, List.map_map]
  refine List.map_congr_left (fun c hc => ?_)
  have hchar := of_decide_eq_true (List.all_eq_true.mp hchars c.toNat (List.mem_range.mpr (h c hc)))
  rw [Char.ofNat_toNat] at hchar
  exact hchar

theorem nonempty_interpreter : Nonempty Interpreter := by
  obtain ⟨platform, -⟩ := @exists_platform (List.replicate 64 (code '0')) (by decide) (by decide)
  let loads (raw : PyStr) : Except Raised JsonValue :=
    match PythonJson.loads platform.float raw with
    | some document => .ok document
    | none => .error .valueError
  have hloads : ∀ raw document, loads raw = .ok document →
      PythonJson.loads platform.float raw = some document := by
    intro raw document h
    simp only [loads] at h
    split at h
    next loaded hloaded =>
      cases h
      exact hloaded
    · cases h
  refine ⟨⟨platform, List.map lowerCode, loads, fun value => .ok (str platform value), hloads, ?_, ?_, ?_⟩⟩
  · intro value s h
    cases h
    rfl
  · exact fun s => rfl
  · exact fun s h => lowerCode_lit h

/-- A token of 40 characters -/
def sampleSettings : Settings :=
  ⟨List.replicate 40 (code 't'), lit "https://queue.example.test/reevaluation.fifo"⟩

/-- An event without a body, whose header is not ASCII -/
def sampleEvent : List (PyStr × JsonValue) :=
  [(lit "headers", .obj [(lit "Authorization", .leaf (.str (lit "Basic é")))])]

theorem configured_sample : Configured sampleSettings := by
  have hscalar : ∀ c ∈ sampleSettings.token, Scalar c := by
    intro c hc
    rw [List.eq_of_mem_replicate hc]
    exact scalar_code 't'
  refine ⟨_, if_pos hscalar, ?_, ?_⟩
  · decide
  · decide

theorem supplied_sample (interpreter : Interpreter) (value : PyStr) :
    supplied interpreter [(lit "Authorization", .leaf (.str value))] = .ok value := by
  have hname : interpreter.lower (lit "Authorization") = lit "authorization" := by
    rw [interpreter.lower_ascii "Authorization" (chars_lt_of_all (by decide))]
    exact congrArg lit (by decide)
  unfold supplied normalized
  rw [List.mapM_cons, interpreter.text_str, hname]
  show Except.ok (([(lit "authorization", value)].reverse.lookup (lit "authorization")).getD []) = _
  rw [List.reverse_singleton, List.lookup_cons_self]
  rfl

/-- A header that is not ASCII crashes the webhook. -/
theorem crashes_on_header : ∃ interpreter : Interpreter, ¬ Answers interpreter sampleSettings sampleEvent := by
  obtain ⟨interpreter⟩ := nonempty_interpreter
  refine ⟨interpreter, ?_⟩
  rintro ⟨response, messages, h, -⟩
  obtain ⟨allowed, hallowed, -⟩ := compared_of_answer h configured_sample
  have hheaders : get sampleEvent "headers" =
      .obj [(lit "Authorization", .leaf (.str (lit "Basic é")))] := by
    unfold get sampleEvent
    rw [List.lookup_cons_self]
    rfl
  obtain ⟨-, value, hvalue, hascii⟩ := ((authorized_eq_ok).mp hallowed).1 _ hheaders
  rw [supplied_sample] at hvalue
  cases hvalue
  have hlast : code 'é' ∈ lit "Basic é" := List.mem_map_of_mem (by decide)
  have hcode := hascii _ hlast
  rw [code_val] at hcode
  exact absurd hcode (by decide)

end SiraChangefeed
