-- SUMMARY: Uploads of evidence over the tables that all tenants share: when an upload succeeds after the uploads of other products, and that it then holds the rows of its own product.
import SiraSeil.SiraApi.SellerAccess

/-!
# Evidence uploads across tenants

The ids of drafts and products are primary keys, so the tables here are those of the whole
database: a product belongs to one organization, and the organization that every query also names
adds nothing to a product's id. The ids of source versions and spans are primary keys as well, but
they are derived from the bytes of an object alone.
-/

namespace SiraApi

open Domain Persistence Raising

/-- A call of `upload_evidence` under a fresh idempotency key, with the answer of the evidence
    store -/
structure UploadCall where
  organizationId : String
  actorId : String
  role : SellerActorRole
  draftId : String
  upload : UploadBody
  stored : StoredEvidenceObject
  given : Given

/-- `upload_evidence`: the checks, the first transaction, the answer of the evidence store and
    `_finalize_uploaded_evidence` -/
def uploadEvidence (s : SellerService) (call : UploadCall) (core : SellerCore) :
    Qualified (SellerDone × SellerCore) := do
  let checked ← checkUpload s call.role call.draftId call.upload
  let (done, core) ← reserveUploadWork call.actorId call.role call.draftId call.upload checked ""
    core
  match done with
  | .reserved =>
    checkStored call.upload call.stored
    finalizeUploadWork call.organizationId call.actorId call.role call.draftId call.upload checked
      call.stored call.given "" core
  | done => return (done, core)

namespace UploadCall

variable (call : UploadCall)

/-- `source_version_id` -/
def sourceId : String :=
  "esv_" ++ String.ofList ((Sha256.hexdigest call.upload.body).toList.take 24)

def checksum : String := call.upload.objectChecksum

/-- What `parse_evidence` makes of the object -/
def text (s : SellerService) : Except String EvidenceText :=
  s.evidenceText call.sourceId call.upload.body call.upload.contentType

/-- The ids of the spans of the object -/
def spanIds (s : SellerService) : List String :=
  match call.text s with
  | .ok text => text.spans.map Prod.fst
  | .error _ => []

/-- The two uploads derive a primary key in common. -/
def Clashes (s : SellerService) (call call' : UploadCall) : Prop :=
  call.sourceId = call'.sourceId ∨ ∃ id ∈ call.spanIds s, id ∈ call'.spanIds s

/-- The product of the call's draft -/
def product (core : SellerCore) : Option String :=
  (core.draft? call.draftId).map (·.productId)

end UploadCall

/-! ## Storing -/

section Storing

variable {core core' : SellerCore} {productId : String} {parsed : Persistence.ParsedEvidence}

/-- The source version of a product and an object -/
def ownSource (core : SellerCore) (productId checksum : String) : Option EvidenceSourceVersion :=
  core.sources.find? (fun x => x.productId = productId ∧ x.objectChecksum = checksum)

/-- The rows of parsed evidence repeat no key. -/
structure FreeFor (core : SellerCore) (parsed : Persistence.ParsedEvidence) : Prop where
  source : ∀ x ∈ core.sources, x.id ≠ parsed.sourceVersionId
  span : ∀ x ∈ core.spans, ∀ p ∈ parsed.spans, x.id ≠ p.1
  sequence : ∀ x ∈ core.spans, ∀ p ∈ parsed.spans,
    x.sourceVersionId = parsed.sourceVersionId → x.sequence ≠ p.2
  ids : (parsed.spans.map Prod.fst).Nodup
  sequences : (parsed.spans.map Prod.snd).Nodup

def spanRow (sourceId : String) (p : String × Nat) : Persistence.EvidenceSpan :=
  ⟨p.1, sourceId, .private, p.2⟩

/-- The tables with the rows of parsed evidence -/
def withEvidence (core : SellerCore) (productId : String) (parsed : Persistence.ParsedEvidence) :
    SellerCore :=
  { core with
    sources := core.sources ++
      [⟨parsed.sourceVersionId, productId, parsed.objectChecksum, parsed.textHash, .parsed⟩]
    spans := core.spans ++ parsed.spans.map (spanRow parsed.sourceVersionId) }

theorem addSpans_iff {sourceId : String} {spans : List (String × Nat)} :
    SellerCore.addSpans sourceId spans core = .ok core' ↔
      (∀ x ∈ core.spans, ∀ p ∈ spans, x.id ≠ p.1) ∧
      (∀ x ∈ core.spans, ∀ p ∈ spans, x.sourceVersionId = sourceId → x.sequence ≠ p.2) ∧
      (spans.map Prod.fst).Nodup ∧ (spans.map Prod.snd).Nodup ∧
      core' = { core with spans := core.spans ++ spans.map (spanRow sourceId) } := by
  induction spans generalizing core with
  | nil => simp [SellerCore.addSpans, eq_comm]
  | cons span spans ih =>
    obtain ⟨id, sequence⟩ := span
    unfold SellerCore.addSpans
    rw [check_bind_eq_ok, check_bind_eq_ok, constrain_eq_ok, constrain_eq_ok,
      List.any_eq_false, List.any_eq_false, ih]
    simp only [decide_eq_true_eq, not_and, List.forall_mem_append, List.forall_mem_cons,
      List.not_mem_nil, false_imp_iff, implies_true, and_true, forall_const, List.map_cons,
      List.nodup_cons, List.append_assoc, List.singleton_append]
    constructor
    · rintro ⟨hid, hsequence, ⟨hids, hnew⟩, ⟨hsequences, hnewSequence⟩, hnodup, hnodup', rfl⟩
      refine ⟨fun x hx => ⟨hid x hx, hids x hx⟩, fun x hx => ⟨hsequence x hx, hsequences x hx⟩,
        ⟨fun hmem => ?_, hnodup⟩, ⟨fun hmem => ?_, hnodup'⟩, rfl⟩
      · obtain ⟨p, hp, heq⟩ := List.mem_map.mp hmem
        exact hnew p hp heq.symm
      · obtain ⟨p, hp, heq⟩ := List.mem_map.mp hmem
        exact hnewSequence p hp heq.symm
    · rintro ⟨hids, hsequences, ⟨hnew, hnodup⟩, ⟨hnewSequence, hnodup'⟩, rfl⟩
      refine ⟨fun x hx => (hids x hx).1, fun x hx => (hsequences x hx).1,
        ⟨fun x hx => (hids x hx).2, fun p hp heq => ?_⟩,
        ⟨fun x hx => (hsequences x hx).2, fun p hp heq => ?_⟩, hnodup, hnodup', rfl⟩
      · exact hnew (List.mem_map.mpr ⟨p, hp, heq.symm⟩)
      · exact hnewSequence (List.mem_map.mpr ⟨p, hp, heq.symm⟩)

theorem storeParsed_iff :
    core.storeParsed productId parsed = .ok core' ↔
      (∃ existing, ownSource core productId parsed.objectChecksum = some existing ∧
        existing.textHash = parsed.textHash ∧ core' = core) ∨
      (ownSource core productId parsed.objectChecksum = none ∧ FreeFor core parsed ∧
        core' = withEvidence core productId parsed) := by
  unfold SellerCore.storeParsed ownSource
  split
  next existing hfind =>
    rw [hfind]
    simp only [Option.some.injEq, exists_eq_left', reduceCtorEq, false_and, or_false]
    split
    next hother => exact ⟨nofun, fun ⟨hsame, _⟩ => absurd hsame hother⟩
    next hsame =>
      rw [ne_eq, not_not] at hsame
      exact ⟨fun h => ⟨hsame, by cases h; rfl⟩, fun ⟨_, hcore⟩ => hcore ▸ rfl⟩
  next hfind =>
    rw [hfind, check_bind_eq_ok, constrain_eq_ok, List.any_eq_false, addSpans_iff]
    simp only [decide_eq_true_eq, reduceCtorEq, false_and, exists_false, true_and, false_or]
    exact ⟨fun ⟨hsource, hspan, hsequence, hids, hsequences, hcore⟩ =>
        ⟨⟨hsource, hspan, hsequence, hids, hsequences⟩, hcore⟩,
      fun ⟨⟨hsource, hspan, hsequence, hids, hsequences⟩, hcore⟩ =>
        ⟨hsource, hspan, hsequence, hids, hsequences, hcore⟩⟩

end Storing

/-! ## One call -/

variable {s : SellerService} {call : UploadCall} {core core' : SellerCore}

/-- The evidence that a call has parsed -/
def parsedOf (call : UploadCall) (text : EvidenceText) : Persistence.ParsedEvidence :=
  ⟨call.sourceId, call.checksum, text.textHash, text.spans⟩

theorem checkUpload_parsed {checked : CheckedUpload}
    (h : checkUpload s call.role call.draftId call.upload = .ok checked) :
    ∃ text, call.text s = .ok text ∧ checked.parsed = parsedOf call text := by
  unfold checkUpload at h
  obtain ⟨-, h⟩ := unless_throw_eq_ok.mp h
  obtain ⟨-, h⟩ := unless_throw_eq_ok.mp h
  obtain ⟨fields, -, h⟩ := bind_eq_ok.mp h
  obtain ⟨-, h⟩ := unless_throw_eq_ok.mp h
  obtain ⟨parsed, hparsed, h⟩ := bind_eq_ok.mp h
  obtain ⟨requestHash, -, h⟩ := bind_eq_ok.mp h
  cases h
  rw [mapError_eq_ok] at hparsed
  obtain ⟨text, htext, hparsed⟩ := bind_eq_ok.mp hparsed
  cases hparsed
  exact ⟨text, htext, rfl⟩

/-- The seller transaction that a call is, as far as access goes -/
def UploadCall.transaction (call : UploadCall) : SellerTransaction where
  actorId := call.actorId
  role := call.role
  idempotencyKey := ""
  call := .reserveUpload call.draftId call.upload
  given := call.given

/-- The row that a call attaches to its draft -/
def UploadCall.record (call : UploadCall) (checked : CheckedUpload) (draft : SellerPackDraft) :
    SellerEvidenceAttachment :=
  attachment call.actorId draft call.stored.sha256 checked.sourceClass checked.claimFields
    call.upload.observedAt none (some call.stored) call.given

/-- What a successful call does: its draft has the object already, or the object is attached to it
    and its evidence stored. -/
inductive Uploaded (s : SellerService) (call : UploadCall) (core core' : SellerCore) : Prop
  | replied {checked : CheckedUpload} {draft : SellerPackDraft} {product : SellerProduct}
      {existing : SellerEvidenceAttachment}
      (checks : checkUpload s call.role call.draftId call.upload = .ok checked)
      (target : DraftOf core call.transaction call.draftId draft product)
      (editable : Editable draft)
      (found : core.evidenceBySource draft.id call.checksum = some existing)
      (matching : requireMatchingMetadata existing checked.sourceClass checked.claimFields
        sameObject = .ok ())
      (stays : core' = core)
  | stored {checked : CheckedUpload} {draft : SellerPackDraft} {product : SellerProduct}
      (checks : checkUpload s call.role call.draftId call.upload = .ok checked)
      (target : DraftOf core call.transaction call.draftId draft product)
      (editable : Editable draft)
      (absent : core.evidenceBySource draft.id call.checksum = none)
      (answer : checkStored call.upload call.stored = .ok ())
      (fresh : NewAttachment core (call.record checked draft))
      (stores : SellerCore.storeParsed
        { core with attachments := core.attachments ++ [call.record checked draft] } product.id
        checked.parsed = .ok core')

theorem reserveUploadWork_iff {checked : CheckedUpload} {done : SellerDone} :
    reserveUploadWork call.actorId call.role call.draftId call.upload checked "" core =
        .ok (done, core') ↔
      core' = core ∧ ∃ draft product, DraftOf core call.transaction call.draftId draft product ∧
        Editable draft ∧
        ((∃ existing, core.evidenceBySource draft.id call.checksum = some existing ∧
            requireMatchingMetadata existing checked.sourceClass checked.claimFields sameObject =
              .ok () ∧ done = .reply ⟨200, evidenceView existing, existing.id⟩ none) ∨
          (core.evidenceBySource draft.id call.checksum = none ∧ done = .reserved)) := by
  unfold reserveUploadWork
  constructor
  · intro h
    obtain ⟨⟨draft, product⟩, hdraft, h⟩ := bind_eq_ok.mp h
    obtain ⟨htarget, heditable⟩ :=
      (editableDraft_eq_ok (t := call.transaction)).mp hdraft
    dsimp only at h
    split at h
    next existing hfound =>
      obtain ⟨_, hmatching, h⟩ := bind_eq_ok.mp h
      cases h
      exact ⟨rfl, draft, product, htarget, heditable, .inl ⟨existing, hfound, hmatching, rfl⟩⟩
    next habsent =>
      cases h
      exact ⟨rfl, draft, product, htarget, heditable, .inr ⟨habsent, rfl⟩⟩
  · rintro ⟨rfl, draft, product, htarget, heditable, hcases⟩
    have hdraft : editableDraft call.actorId call.role call.draftId frozenEvidence core' =
        .ok (draft, product) :=
      (editableDraft_eq_ok (t := call.transaction)).mpr ⟨htarget, heditable⟩
    rw [hdraft, ok_bind]
    dsimp only
    rcases hcases with ⟨existing, hfound, hmatching, rfl⟩ | ⟨habsent, rfl⟩
    · change core'.evidenceBySource draft.id call.upload.objectChecksum = _ at hfound
      rw [hfound]
      dsimp only
      rw [hmatching]
      rfl
    · change core'.evidenceBySource draft.id call.upload.objectChecksum = _ at habsent
      rw [habsent]
      rfl

theorem finalizeUploadWork_iff {checked : CheckedUpload} {draft : SellerPackDraft}
    {product : SellerProduct}
    (htarget : DraftOf core call.transaction call.draftId draft product)
    (heditable : Editable draft)
    (habsent : core.evidenceBySource draft.id call.stored.sha256 = none) :
    (∃ done, finalizeUploadWork call.organizationId call.actorId call.role call.draftId call.upload
        checked call.stored call.given "" core = .ok (done, core')) ↔
      NewAttachment core (call.record checked draft) ∧
      SellerCore.storeParsed
        { core with attachments := core.attachments ++ [call.record checked draft] } product.id
        checked.parsed = .ok core' := by
  have hdraft : editableDraft call.actorId call.role call.draftId frozenEvidence core =
      .ok (draft, product) :=
    (editableDraft_eq_ok (t := call.transaction)).mpr ⟨htarget, heditable⟩
  unfold finalizeUploadWork
  rw [hdraft, ok_bind]
  dsimp only
  rw [habsent]
  dsimp only
  constructor
  · rintro ⟨done, h⟩
    obtain ⟨added, hadded, h⟩ := bind_eq_ok.mp h
    obtain ⟨hnew, rfl⟩ := addAttachment_eq_ok.mp hadded
    obtain ⟨stored, hstored, h⟩ := bind_eq_ok.mp h
    cases h
    exact ⟨hnew, hstored⟩
  · rintro ⟨hnew, hstored⟩
    have hadded := addAttachment_eq_ok.mpr ⟨hnew, rfl⟩
    unfold UploadCall.record at hadded hstored
    rw [hadded, ok_bind, hstored]
    exact ⟨_, rfl⟩

theorem uploadEvidence_iff :
    (∃ done, uploadEvidence s call core = .ok (done, core')) ↔ Uploaded s call core core' := by
  unfold uploadEvidence
  constructor
  · rintro ⟨done, h⟩
    obtain ⟨checked, hchecks, h⟩ := bind_eq_ok.mp h
    obtain ⟨⟨answer, same⟩, hreserve, h⟩ := bind_eq_ok.mp h
    obtain ⟨rfl, draft, product, htarget, heditable, hcases⟩ := reserveUploadWork_iff.mp hreserve
    rcases hcases with ⟨existing, hfound, hmatching, rfl⟩ | ⟨habsent, rfl⟩
    · cases h
      exact .replied hchecks htarget heditable hfound hmatching rfl
    · obtain ⟨_, hanswer, h⟩ := bind_eq_ok.mp h
      have hsame := checkStored_eq_ok hanswer
      have hworks := (finalizeUploadWork_iff htarget heditable (hsame ▸ habsent)).mp ⟨done, h⟩
      exact .stored hchecks htarget heditable habsent hanswer hworks.1 hworks.2
  · rintro (⟨hchecks, htarget, heditable, hfound, hmatching, rfl⟩ |
      ⟨hchecks, htarget, heditable, habsent, hanswer, hfresh, hstores⟩)
    · rw [hchecks, ok_bind, reserveUploadWork_iff.mpr
        ⟨rfl, _, _, htarget, heditable, .inl ⟨_, hfound, hmatching, rfl⟩⟩]
      exact ⟨_, rfl⟩
    · rw [hchecks, ok_bind, reserveUploadWork_iff.mpr
        ⟨rfl, _, _, htarget, heditable, .inr ⟨habsent, rfl⟩⟩]
      have hsame := checkStored_eq_ok hanswer
      obtain ⟨done, hworks⟩ :=
        (finalizeUploadWork_iff htarget heditable (hsame ▸ habsent)).mpr ⟨hfresh, hstores⟩
      refine ⟨done, ?_⟩
      rw [ok_bind]
      dsimp only
      rw [hanswer, ok_bind, hworks]

/-! ## Histories -/

/-- The successful calls of a history, one after another. A call that fails leaves the tables as
    they were. -/
inductive Uploads (s : SellerService) (start : SellerCore) : List UploadCall → SellerCore → Prop
  | nil : Uploads s start [] start
  | snoc {history : List UploadCall} {call : UploadCall} {core core' : SellerCore}
      (earlier : Uploads s start history core) (step : Uploaded s call core core') :
      Uploads s start (history ++ [call]) core'

/-- The tables have the source version and the spans of the call's object, for the product of its
    draft. -/
structure StoredFor (s : SellerService) (core : SellerCore) (call : UploadCall)
    (text : EvidenceText) (productId : String) : Prop where
  parsed : call.text s = .ok text
  product : call.product core = some productId
  source : ∃ x ∈ core.sources, x.id = call.sourceId ∧ x.productId = productId ∧
    x.objectChecksum = call.checksum ∧ x.textHash = text.textHash
  spans : ∀ p ∈ text.spans, ∃ x ∈ core.spans, x.id = p.1 ∧ x.sourceVersionId = call.sourceId ∧
    x.sequence = p.2

/-- The tables hold evidence of exactly the calls of the history. -/
structure HoldsUploads (s : SellerService) (start : SellerCore) (history : List UploadCall)
    (core : SellerCore) : Prop where
  drafts : core.drafts = start.drafts
  products : core.products = start.products
  held : ∀ call ∈ history, ∃ text productId, StoredFor s core call text productId
  source : ∀ x ∈ core.sources, ∃ call ∈ history, x.id = call.sourceId ∧
    x.objectChecksum = call.checksum ∧ call.product core = some x.productId
  span : ∀ x ∈ core.spans, ∃ call ∈ history, x.sourceVersionId = call.sourceId ∧
    x.id ∈ call.spanIds s
  attachment : ∀ a ∈ core.attachments, ∃ call ∈ history, a.draftId = call.draftId ∧
    a.sourceReferenceHash = call.checksum
  sourceIds : (core.sources.map (·.id)).Nodup
  spanIds : (core.spans.map (·.id)).Nodup

/-- `parse_evidence` reads the content type only to accept it, and no two objects of the calls have
    one checksum. -/
structure SameTexts (s : SellerService) (calls : List UploadCall) : Prop where
  collision : ∀ call ∈ calls, ∀ call' ∈ calls, call.checksum = call'.checksum →
    call.upload.body = call'.upload.body
  contentType : ∀ id body type type' text text', s.evidenceText id body type = .ok text →
    s.evidenceText id body type' = .ok text' → text = text'

theorem UploadCall.product_congr {start : SellerCore} (h : core.drafts = start.drafts) :
    call.product core = call.product start := by
  unfold UploadCall.product SellerCore.draft?
  rw [h]

theorem StoredFor.mono {text : EvidenceText} {productId : String}
    (h : StoredFor s core call text productId) (hdrafts : core'.drafts = core.drafts)
    (hsources : ∀ x ∈ core.sources, x ∈ core'.sources)
    (hspans : ∀ x ∈ core.spans, x ∈ core'.spans) : StoredFor s core' call text productId := by
  obtain ⟨hparsed, hproduct, ⟨x, hx, hrow⟩, hrows⟩ := h
  refine ⟨hparsed, (UploadCall.product_congr hdrafts).trans hproduct, ⟨x, hsources x hx, hrow⟩,
    fun p hp => ?_⟩
  obtain ⟨x, hx, hrow⟩ := hrows p hp
  exact ⟨x, hspans x hx, hrow⟩

theorem StoredFor.share {calls : List UploadCall} {call' : UploadCall} {text text' : EvidenceText}
    {productId : String} (htexts : SameTexts s calls) (hcall : call ∈ calls)
    (hcall' : call' ∈ calls) (hsame : call.checksum = call'.checksum)
    (hproduct : call'.product core = call.product core) (htext' : call'.text s = .ok text')
    (h : StoredFor s core call text productId) : StoredFor s core call' text' productId := by
  have hbody := htexts.collision call hcall call' hcall' hsame
  have hid : call.sourceId = call'.sourceId := by
    unfold UploadCall.sourceId
    rw [hbody]
  obtain ⟨htext, hown, hsource, hspans⟩ := h
  have heq : text = text' := by
    unfold UploadCall.text at htext htext'
    rw [hid, hbody] at htext
    exact htexts.contentType _ _ _ _ _ _ htext htext'
  subst heq
  rw [hid, hsame] at hsource
  rw [hid] at hspans
  exact ⟨htext', hproduct.trans hown, hsource, hspans⟩

section Step

variable {start : SellerCore} {history : List UploadCall} {text : EvidenceText}
  {draft : SellerPackDraft} {product : SellerProduct}

theorem product_of_target (h : DraftOf core call.transaction call.draftId draft product) :
    call.product core = some product.id ∧ draft.id = call.draftId := by
  have hproduct := (mem_of_product h.owned).2
  refine ⟨?_, (mem_of_draft h.found).2⟩
  unfold UploadCall.product
  rw [h.found, Option.map_some, ← hproduct]

theorem mem_spanIds (h : call.text s = .ok text) {id : String} :
    id ∈ call.spanIds s ↔ ∃ p ∈ text.spans, p.1 = id := by
  unfold UploadCall.spanIds
  rw [h]
  exact List.mem_map

theorem HoldsUploads.empty (hattachments : start.attachments = []) (hsources : start.sources = [])
    (hspans : start.spans = []) : HoldsUploads s start [] start where
  drafts := rfl
  products := rfl
  held := nofun
  source := by rw [hsources]; nofun
  span := by rw [hspans]; nofun
  attachment := by rw [hattachments]; nofun
  sourceIds := by rw [hsources]; exact List.nodup_nil
  spanIds := by rw [hspans]; exact List.nodup_nil

theorem HoldsUploads.again (h : HoldsUploads s start history core) {productId : String}
    {attachments : List SellerEvidenceAttachment}
    (hattachments : ∀ a ∈ attachments, a ∈ core.attachments ∨
      (a.draftId = call.draftId ∧ a.sourceReferenceHash = call.checksum))
    (hstored : StoredFor s core call text productId) :
    HoldsUploads s start (history ++ [call]) { core with attachments := attachments } where
  drafts := h.drafts
  products := h.products
  held := by
    rw [List.forall_mem_append, List.forall_mem_singleton]
    refine ⟨fun earlier hearlier => ?_, text, productId,
      hstored.mono rfl (fun _ hx => hx) (fun _ hx => hx)⟩
    obtain ⟨text', productId', hheld⟩ := h.held earlier hearlier
    exact ⟨text', productId', hheld.mono rfl (fun _ hx => hx) (fun _ hx => hx)⟩
  source x hx := by
    obtain ⟨earlier, hearlier, hrow⟩ := h.source x hx
    exact ⟨earlier, List.mem_append_left _ hearlier, hrow⟩
  span x hx := by
    obtain ⟨earlier, hearlier, hrow⟩ := h.span x hx
    exact ⟨earlier, List.mem_append_left _ hearlier, hrow⟩
  attachment a ha := by
    rcases hattachments a ha with hold | hnew
    · obtain ⟨earlier, hearlier, hrow⟩ := h.attachment a hold
      exact ⟨earlier, List.mem_append_left _ hearlier, hrow⟩
    · exact ⟨call, List.mem_append_right _ (List.mem_singleton_self _), hnew⟩
  sourceIds := h.sourceIds
  spanIds := h.spanIds

theorem HoldsUploads.stores (h : HoldsUploads s start history core)
    {record : SellerEvidenceAttachment} {productId : String} (htext : call.text s = .ok text)
    (hproduct : call.product core = some productId)
    (hrecord : record.draftId = call.draftId ∧ record.sourceReferenceHash = call.checksum)
    (hfree : FreeFor core (parsedOf call text)) :
    HoldsUploads s start (history ++ [call])
      (withEvidence { core with attachments := core.attachments ++ [record] } productId
        (parsedOf call text)) where
  drafts := h.drafts
  products := h.products
  held := by
    rw [List.forall_mem_append, List.forall_mem_singleton]
    refine ⟨fun earlier hearlier => ?_, text, productId, htext, hproduct, ?_, fun p hp => ?_⟩
    · obtain ⟨text', productId', hheld⟩ := h.held earlier hearlier
      exact ⟨text', productId', hheld.mono rfl (fun _ => List.mem_append_left _)
        (fun _ => List.mem_append_left _)⟩
    · exact ⟨_, List.mem_append_right _ (List.mem_singleton_self _), rfl, rfl, rfl, rfl⟩
    · exact ⟨_, List.mem_append_right _ (List.mem_map.mpr ⟨p, hp, rfl⟩), rfl, rfl, rfl⟩
  source x hx := by
    rcases List.mem_append.mp hx with hold | hnew
    · obtain ⟨earlier, hearlier, hrow⟩ := h.source x hold
      exact ⟨earlier, List.mem_append_left _ hearlier, hrow⟩
    · cases List.mem_singleton.mp hnew
      exact ⟨call, List.mem_append_right _ (List.mem_singleton_self _), rfl, rfl, hproduct⟩
  span x hx := by
    rcases List.mem_append.mp hx with hold | hnew
    · obtain ⟨earlier, hearlier, hrow⟩ := h.span x hold
      exact ⟨earlier, List.mem_append_left _ hearlier, hrow⟩
    · obtain ⟨p, hp, rfl⟩ := List.mem_map.mp hnew
      exact ⟨call, List.mem_append_right _ (List.mem_singleton_self _), rfl,
        (mem_spanIds htext).mpr ⟨p, hp, rfl⟩⟩
  attachment a ha := by
    rcases List.mem_append.mp ha with hold | hnew
    · obtain ⟨earlier, hearlier, hrow⟩ := h.attachment a hold
      exact ⟨earlier, List.mem_append_left _ hearlier, hrow⟩
    · cases List.mem_singleton.mp hnew
      exact ⟨call, List.mem_append_right _ (List.mem_singleton_self _), hrecord⟩
  sourceIds := by
    unfold withEvidence
    rw [List.map_append, List.map_singleton, List.nodup_append]
    refine ⟨h.sourceIds, List.nodup_singleton _, fun id hid id' hid' => ?_⟩
    obtain ⟨x, hx, rfl⟩ := List.mem_map.mp hid
    rw [List.mem_singleton.mp hid']
    exact hfree.source x hx
  spanIds := by
    have hids : ((parsedOf call text).spans.map (spanRow call.sourceId)).map (·.id) =
        (parsedOf call text).spans.map Prod.fst := by
      rw [List.map_map]
      rfl
    unfold withEvidence
    rw [List.map_append, List.nodup_append]
    refine ⟨h.spanIds, hids ▸ hfree.ids, fun id hid id' hid' => ?_⟩
    obtain ⟨x, hx, rfl⟩ := List.mem_map.mp hid
    obtain ⟨x', hx', rfl⟩ := List.mem_map.mp hid'
    obtain ⟨p, hp, rfl⟩ := List.mem_map.mp hx'
    exact hfree.span x hx p hp

/-- What an earlier call has stored for one product and object is stored for the call as well. -/
theorem HoldsUploads.share (h : HoldsUploads s start history core)
    (htexts : SameTexts s (history ++ [call])) (htext : call.text s = .ok text)
    {earlier : UploadCall} (hearlier : earlier ∈ history)
    (hsame : earlier.checksum = call.checksum) (hproduct : call.product core = earlier.product core) :
    ∃ productId, StoredFor s core call text productId := by
  obtain ⟨text', productId, hheld⟩ := h.held earlier hearlier
  exact ⟨productId, hheld.share htexts (List.mem_append_left _ hearlier)
    (List.mem_append_right _ (List.mem_singleton_self _)) hsame hproduct htext⟩

theorem HoldsUploads.attached (h : HoldsUploads s start history core)
    (htexts : SameTexts s (history ++ [call])) (htext : call.text s = .ok text)
    {existing : SellerEvidenceAttachment}
    (hfound : core.evidenceBySource call.draftId call.checksum = some existing) :
    ∃ productId, StoredFor s core call text productId := by
  have hrow := List.find?_some hfound
  simp only [decide_eq_true_eq] at hrow
  obtain ⟨earlier, hearlier, hdraft, hchecksum⟩ :=
    h.attachment existing (List.mem_of_find?_eq_some hfound)
  refine h.share htexts htext hearlier (hchecksum.symm.trans hrow.2) ?_
  unfold UploadCall.product
  rw [← hdraft, hrow.1]

theorem HoldsUploads.owned (h : HoldsUploads s start history core)
    (htexts : SameTexts s (history ++ [call])) (htext : call.text s = .ok text)
    {productId : String} (hproduct : call.product core = some productId)
    {existing : EvidenceSourceVersion}
    (hfound : ownSource core productId call.checksum = some existing) :
    ∃ productId, StoredFor s core call text productId := by
  have hrow := List.find?_some hfound
  simp only [decide_eq_true_eq] at hrow
  obtain ⟨earlier, hearlier, -, hchecksum, hown⟩ :=
    h.source existing (List.mem_of_find?_eq_some hfound)
  refine h.share htexts htext hearlier (hchecksum.symm.trans hrow.2) ?_
  rw [hproduct, hown, hrow.1]

theorem Uploaded.holds (hstep : Uploaded s call core core')
    (htexts : SameTexts s (history ++ [call])) (h : HoldsUploads s start history core) :
    HoldsUploads s start (history ++ [call]) core' := by
  cases hstep with
  | replied hchecks htarget heditable hfound hmatching hstays =>
    obtain ⟨text, htext, -⟩ := checkUpload_parsed hchecks
    rw [(product_of_target htarget).2] at hfound
    obtain ⟨productId, hstored⟩ := h.attached htexts htext hfound
    subst hstays
    exact h.again (fun a ha => .inl ha) hstored
  | @stored checked draft product hchecks htarget heditable habsent hanswer hfresh hstores =>
    obtain ⟨text, htext, hparsed⟩ := checkUpload_parsed hchecks
    obtain ⟨hproduct, hdraft⟩ := product_of_target htarget
    have hrecord : (call.record checked draft).draftId = call.draftId ∧
        (call.record checked draft).sourceReferenceHash = call.checksum :=
      ⟨hdraft, checkStored_eq_ok hanswer⟩
    rw [hparsed] at hstores
    rcases storeParsed_iff.mp hstores with ⟨existing, hfound, -, rfl⟩ | ⟨-, hfree, rfl⟩
    · obtain ⟨productId, hstored⟩ := h.owned htexts htext hproduct hfound
      refine h.again (fun a ha => (List.mem_append.mp ha).imp id fun hnew => ?_) hstored
      rw [List.mem_singleton.mp hnew]
      exact hrecord
    · exact h.stores htext hproduct hrecord ⟨hfree.source, hfree.span, hfree.sequence, hfree.ids,
        hfree.sequences⟩

theorem SameTexts.initial {calls calls' : List UploadCall} (h : SameTexts s (calls ++ calls')) :
    SameTexts s calls :=
  ⟨fun call hcall call' hcall' => h.collision call (List.mem_append_left _ hcall) call'
    (List.mem_append_left _ hcall'), h.contentType⟩

theorem Uploads.holds (hattachments : start.attachments = []) (hsources : start.sources = [])
    (hspans : start.spans = []) (hrun : Uploads s start history core)
    (htexts : SameTexts s history) : HoldsUploads s start history core := by
  induction hrun with
  | nil => exact .empty hattachments hsources hspans
  | snoc earlier step ih => exact step.holds htexts (ih htexts.initial)

/-- Two calls that the tables hold and that derive a key in common are of one product and one
    object. -/
theorem HoldsUploads.same (h : HoldsUploads s start history core) {call' : UploadCall}
    {text' : EvidenceText} {productId productId' : String}
    (hheld : StoredFor s core call text productId)
    (hheld' : StoredFor s core call' text' productId') (hclash : call.Clashes s call') :
    productId = productId' ∧ call.checksum = call'.checksum := by
  obtain ⟨x, hx, hid, hproduct, hchecksum, -⟩ := hheld.source
  obtain ⟨x', hx', hid', hproduct', hchecksum', -⟩ := hheld'.source
  have hsource : call.sourceId = call'.sourceId := by
    rcases hclash with hsame | ⟨id, hspan, hspan'⟩
    · exact hsame
    · obtain ⟨p, hp, rfl⟩ := (mem_spanIds hheld.parsed).mp hspan
      obtain ⟨p', hp', hpp⟩ := (mem_spanIds hheld'.parsed).mp hspan'
      obtain ⟨y, hy, hyid, hysource, -⟩ := hheld.spans p hp
      obtain ⟨y', hy', hyid', hysource', -⟩ := hheld'.spans p' hp'
      have heq : y = y' :=
        List.inj_on_of_nodup_map h.spanIds hy hy' (hyid.trans (hpp.symm.trans hyid'.symm))
      rw [← hysource, ← hysource', heq]
  have heq : x = x' :=
    List.inj_on_of_nodup_map h.sourceIds hx hx' (hid.trans (hsource.trans hid'.symm))
  exact ⟨hproduct.symm.trans ((congrArg _ heq).trans hproduct'),
    hchecksum.symm.trans ((congrArg _ heq).trans hchecksum')⟩

theorem HoldsUploads.textHash (h : HoldsUploads s start history core)
    (htexts : SameTexts s (history ++ [call])) (htext : call.text s = .ok text)
    {productId : String} (hproduct : call.product core = some productId)
    {existing : EvidenceSourceVersion}
    (hfound : ownSource core productId call.checksum = some existing) :
    existing.textHash = text.textHash := by
  obtain ⟨_, hstored⟩ := h.owned htexts htext hproduct hfound
  obtain ⟨x, hx, hid, -, -, hhash⟩ := hstored.source
  have hrow := List.find?_some hfound
  simp only [decide_eq_true_eq] at hrow
  have hmem := List.mem_of_find?_eq_some hfound
  obtain ⟨earlier, hearlier, hearlierId, hchecksum, -⟩ := h.source existing hmem
  have hbody := htexts.collision earlier (List.mem_append_left _ hearlier) call
    (List.mem_append_right _ (List.mem_singleton_self _)) (hchecksum.symm.trans hrow.2)
  have hsource : earlier.sourceId = call.sourceId := by
    unfold UploadCall.sourceId
    rw [hbody]
  have heq : existing = x :=
    List.inj_on_of_nodup_map h.sourceIds hmem hx (hearlierId.trans (hsource.trans hid.symm))
  rw [heq, hhash]

/-- The call passes every check that does not look at the evidence tables. -/
def PassesChecks (s : SellerService) (call : UploadCall) (core : SellerCore) : Prop :=
  ∃ done core', uploadEvidence s call { core with
    sources := []
    spans := [] } = .ok (done, core')

/-- Every earlier call that derives one of the call's keys is for its product and its object. -/
def OwnKeys (s : SellerService) (start : SellerCore) (history : List UploadCall)
    (call : UploadCall) : Prop :=
  ∀ earlier ∈ history, earlier.Clashes s call →
    earlier.product start = call.product start ∧ earlier.checksum = call.checksum

theorem uploaded_of_ownKeys (h : HoldsUploads s start history core)
    (htexts : SameTexts s (history ++ [call])) (hchecks : PassesChecks s call core)
    (hown : OwnKeys s start history call) : ∃ core', Uploaded s call core core' := by
  obtain ⟨done, core', halone⟩ := hchecks
  rcases uploadEvidence_iff.mp ⟨done, halone⟩ with
    ⟨hupload, htarget, heditable, hfound, hmatching, -⟩ |
    ⟨hupload, htarget, heditable, habsent, hanswer, hfresh, hstores⟩
  · exact ⟨core, .replied hupload ⟨htarget.found, htarget.owned, htarget.access⟩ heditable hfound
      hmatching rfl⟩
  · next checked draft product =>
    have htarget' : DraftOf core call.transaction call.draftId draft product :=
      ⟨htarget.found, htarget.owned, htarget.access⟩
    obtain ⟨text, htext, hparsed⟩ := checkUpload_parsed hupload
    obtain ⟨hproduct, -⟩ := product_of_target htarget'
    rw [hparsed] at hstores
    obtain ⟨existing, hsome, -⟩ | ⟨-, hfree, -⟩ := storeParsed_iff.mp hstores
    · cases hsome
    have hstart : call.product start = some product.id :=
      (UploadCall.product_congr h.drafts).symm.trans hproduct
    -- A clash with a stored row means that the product has the object.
    have hhas : ∀ earlier ∈ history, earlier.Clashes s call →
        ownSource core product.id call.checksum ≠ none := by
      intro earlier hearlier hclash hnone
      obtain ⟨hsameProduct, hchecksum⟩ := hown earlier hearlier hclash
      obtain ⟨text', productId, hheld⟩ := h.held earlier hearlier
      obtain ⟨x, hx, -, hxproduct, hxchecksum, -⟩ := hheld.source
      have hrow := List.find?_eq_none.mp hnone x hx
      simp only [decide_eq_true_eq, not_and] at hrow
      have hproductId : some productId = some product.id := by
        rw [← hheld.product, UploadCall.product_congr h.drafts, hsameProduct, hstart]
      exact hrow (hxproduct.trans (Option.some.inj hproductId)) (hxchecksum.trans hchecksum)
    have hstored : ∃ core', SellerCore.storeParsed
        { core with attachments := core.attachments ++ [call.record checked draft] } product.id
        checked.parsed = .ok core' := by
      rw [hparsed]
      cases hfound : ownSource core product.id call.checksum with
      | some existing =>
        exact ⟨_, storeParsed_iff.mpr
          (.inl ⟨existing, hfound, h.textHash htexts htext hproduct hfound, rfl⟩)⟩
      | none =>
        refine ⟨_, storeParsed_iff.mpr (.inr ⟨hfound, ?_, rfl⟩)⟩
        have hclear : ∀ earlier ∈ history, ¬ earlier.Clashes s call :=
          fun earlier hearlier hclash => hhas earlier hearlier hclash hfound
        refine ⟨fun x hx heq => ?_, fun x hx p hp heq => ?_, fun x hx p hp heq => ?_, hfree.ids,
          hfree.sequences⟩
        · obtain ⟨earlier, hearlier, hid, -⟩ := h.source x hx
          exact absurd (.inl (hid.symm.trans heq)) (hclear earlier hearlier)
        · obtain ⟨earlier, hearlier, -, hid⟩ := h.span x hx
          exact absurd (.inr ⟨x.id, hid, (mem_spanIds htext).mpr ⟨p, hp, heq.symm⟩⟩)
            (hclear earlier hearlier)
        · obtain ⟨earlier, hearlier, hid, -⟩ := h.span x hx
          exact absurd (.inl (hid.symm.trans heq)) (hclear earlier hearlier)
    obtain ⟨core', hstored⟩ := hstored
    exact ⟨core', .stored hupload htarget' heditable habsent hanswer
      ⟨hfresh.id, hfresh.source, hfresh.size⟩ hstored⟩

end Step

/-! ## Without the uploads of other products -/

section Apart

variable {first : String → Bool} {start core core₂ : SellerCore} {history : List UploadCall}

/-- The draft is not of one of the first products. -/
def ofSecond (first : String → Bool) (core : SellerCore) (draftId : String) : Bool :=
  !((core.draft? draftId).map (·.productId)).any first

/-- The tables without the rows of the first products -/
structure Apart (first : String → Bool) (core core₂ : SellerCore) : Prop where
  drafts : core₂.drafts = core.drafts
  products : core₂.products = core.products
  attachments : core₂.attachments = core.attachments.filter (fun a => ofSecond first core a.draftId)
  sources : core₂.sources = core.sources.filter (fun x => !first x.productId)
  spans : ∀ x ∈ core₂.spans, x ∈ core.spans

theorem find?_filter_of_imp {α : Type} {p q : α → Bool} {l : List α}
    (h : ∀ a, p a = true → q a = true) : (l.filter q).find? p = l.find? p := by
  induction l with
  | nil => rfl
  | cons a l ih =>
    cases hq : q a with
    | true => rw [List.filter_cons_of_pos hq, List.find?_cons, List.find?_cons, ih]
    | false =>
      have hp : p a = false := Bool.eq_false_iff.mpr fun hp => by rw [h a hp] at hq; cases hq
      rw [List.filter_cons_of_neg (by simp [hq]), ih, List.find?_cons_of_neg (by simp [hp])]

theorem filter_concat_of_pos {α : Type} {q : α → Bool} {l : List α} {a : α} (h : q a = true) :
    (l ++ [a]).filter q = l.filter q ++ [a] := by
  rw [List.filter_append, List.filter_cons_of_pos h, List.filter_nil]

theorem filter_concat_of_neg {α : Type} {q : α → Bool} {l : List α} {a : α} (h : q a = false) :
    (l ++ [a]).filter q = l.filter q := by
  rw [List.filter_append, List.filter_cons_of_neg (by simp [h]), List.filter_nil, List.append_nil]

theorem Apart.target {t : SellerTransaction} {draftId : String} {draft : SellerPackDraft}
    {product : SellerProduct} (h : Apart first core core₂)
    (htarget : DraftOf core t draftId draft product) : DraftOf core₂ t draftId draft product := by
  refine ⟨?_, ?_, htarget.access⟩
  · rw [← htarget.found]
    unfold SellerCore.draft?
    rw [h.drafts]
  · rw [← htarget.owned]
    unfold SellerCore.product?
    rw [h.products]

theorem ofSecond_of_target {draft : SellerPackDraft} {product : SellerProduct}
    (h : DraftOf core call.transaction call.draftId draft product) :
    ofSecond first core call.draftId = !first product.id := by
  have hproduct := (product_of_target h).1
  unfold UploadCall.product at hproduct
  unfold ofSecond
  rw [hproduct, Option.any_some]

theorem Apart.evidenceBySource {draftId checksum : String} (h : Apart first core core₂)
    (hsecond : ofSecond first core draftId = true) :
    core₂.evidenceBySource draftId checksum = core.evidenceBySource draftId checksum := by
  unfold SellerCore.evidenceBySource
  rw [h.attachments]
  refine find?_filter_of_imp fun a ha => ?_
  rw [(of_decide_eq_true ha).1]
  exact hsecond

theorem Apart.ownSource {productId checksum : String} (h : Apart first core core₂)
    (hsecond : first productId = false) :
    ownSource core₂ productId checksum = ownSource core productId checksum := by
  unfold SiraApi.ownSource
  rw [h.sources]
  refine find?_filter_of_imp fun x hx => ?_
  rw [(of_decide_eq_true hx).1, hsecond]
  rfl

theorem Apart.ofFirst (h : Apart first core core₂)
    (hcall : ofSecond first core call.draftId = false) (hstep : Uploaded s call core core') :
    Apart first core' core₂ := by
  cases hstep with
  | replied _ _ _ _ _ hstays => exact hstays ▸ h
  | @stored checked draft product hchecks htarget heditable habsent hanswer hfresh hstores =>
    have hproduct : (!first product.id) = false := (ofSecond_of_target htarget).symm.trans hcall
    have hrecord : ofSecond first core (call.record checked draft).draftId = false := by
      rw [show (call.record checked draft).draftId = call.draftId from
        (product_of_target htarget).2]
      exact hcall
    have hattachments : core₂.attachments = (core.attachments ++ [call.record checked draft]).filter
        (fun a => ofSecond first core a.draftId) := by
      rw [h.attachments]
      exact (filter_concat_of_neg (q := fun a : SellerEvidenceAttachment =>
        ofSecond first core a.draftId) hrecord).symm
    rcases storeParsed_iff.mp hstores with ⟨_, _, -, rfl⟩ | ⟨-, -, rfl⟩
    · exact ⟨h.drafts, h.products, hattachments, h.sources, h.spans⟩
    · refine ⟨h.drafts, h.products, hattachments, ?_,
        fun x hx => List.mem_append_left _ (h.spans x hx)⟩
      rw [h.sources]
      exact (filter_concat_of_neg (q := fun x : EvidenceSourceVersion => !first x.productId) hproduct).symm

theorem Apart.ofSecond (h : Apart first core core₂)
    (hcall : SiraApi.ofSecond first core call.draftId = true) (hstep : Uploaded s call core core') :
    ∃ core₂', Uploaded s call core₂ core₂' ∧ Apart first core' core₂' := by
  cases hstep with
  | replied hchecks htarget heditable hfound hmatching hstays =>
    have hdraft := (product_of_target htarget).2
    refine ⟨core₂, .replied hchecks (h.target htarget) heditable ?_ hmatching rfl, hstays ▸ h⟩
    rw [hdraft] at hfound ⊢
    rw [h.evidenceBySource hcall, hfound]
  | @stored checked draft product hchecks htarget heditable habsent hanswer hfresh hstores =>
    have hdraft := (product_of_target htarget).2
    have hproduct : (!first product.id) = true := (ofSecond_of_target htarget).symm.trans hcall
    have hrecord : SiraApi.ofSecond first core (call.record checked draft).draftId = true := by
      rw [show (call.record checked draft).draftId = call.draftId from hdraft]
      exact hcall
    have hattachments : core₂.attachments ++ [call.record checked draft] =
        (core.attachments ++ [call.record checked draft]).filter
          (fun a => SiraApi.ofSecond first core a.draftId) := by
      rw [h.attachments]
      exact (filter_concat_of_pos (q := fun a : SellerEvidenceAttachment =>
        SiraApi.ofSecond first core a.draftId) hrecord).symm
    have hmem : ∀ a ∈ core₂.attachments, a ∈ core.attachments := by
      rw [h.attachments]
      exact fun a ha => (List.mem_filter.mp ha).1
    have hfresh₂ : NewAttachment core₂ (call.record checked draft) :=
      ⟨fun a ha => hfresh.id a (hmem a ha), fun a ha => hfresh.source a (hmem a ha), hfresh.size⟩
    have habsent₂ : core₂.evidenceBySource draft.id call.checksum = none := by
      rw [hdraft] at habsent ⊢
      rw [h.evidenceBySource hcall, habsent]
    have hown : ∀ checksum, SiraApi.ownSource core₂ product.id checksum =
        SiraApi.ownSource core product.id checksum :=
      fun _ => h.ownSource (by simpa using hproduct)
    have hsources : ∀ x ∈ core₂.sources, x ∈ core.sources := by
      rw [h.sources]
      exact fun x hx => (List.mem_filter.mp hx).1
    have hworks : ∀ {core₂' : SellerCore}, SellerCore.storeParsed
        { core₂ with attachments := core₂.attachments ++ [call.record checked draft] } product.id
        checked.parsed = .ok core₂' → Uploaded s call core₂ core₂' :=
      fun hstored => .stored hchecks (h.target htarget) heditable habsent₂ hanswer hfresh₂ hstored
    rcases storeParsed_iff.mp hstores with ⟨existing, hfound, hhash, rfl⟩ | ⟨hnone, hfree, rfl⟩
    · refine ⟨_, hworks (storeParsed_iff.mpr (.inl ⟨existing, ?_, hhash, rfl⟩)),
        h.drafts, h.products, hattachments, h.sources, h.spans⟩
      exact (hown _).trans hfound
    · refine ⟨_, hworks (storeParsed_iff.mpr (.inr ⟨(hown _).trans hnone, ?_, rfl⟩)),
        h.drafts, h.products, hattachments, ?_, fun x hx => ?_⟩
      · exact ⟨fun x hx => hfree.source x (hsources x hx),
          fun x hx => hfree.span x (h.spans x hx), fun x hx => hfree.sequence x (h.spans x hx),
          hfree.ids, hfree.sequences⟩
      · unfold withEvidence
        dsimp only
        rw [h.sources]
        exact (filter_concat_of_pos (q := fun x : EvidenceSourceVersion => !first x.productId) hproduct).symm
      · exact (List.mem_append.mp hx).elim (fun hold => List.mem_append_left _ (h.spans x hold))
          (fun hnew => List.mem_append_right _ hnew)

theorem Uploads.drafts (hrun : Uploads s start history core) : core.drafts = start.drafts := by
  induction hrun with
  | nil => rfl
  | snoc earlier step ih =>
    rw [← ih]
    cases step with
    | replied _ _ _ _ _ hstays => rw [hstays]
    | stored _ _ _ _ _ _ hstores =>
      rcases storeParsed_iff.mp hstores with ⟨_, _, -, rfl⟩ | ⟨-, -, rfl⟩
      · rfl
      · rfl

theorem Uploads.apart (hattachments : start.attachments = []) (hsources : start.sources = [])
    (hspans : start.spans = []) (hrun : Uploads s start history core) :
    ∃ core₂, Uploads s start (history.filter (fun call => SiraApi.ofSecond first start call.draftId))
      core₂ ∧ Apart first core core₂ := by
  induction hrun with
  | nil =>
    exact ⟨start, .nil, rfl, rfl, by simp [hattachments], by simp [hsources], by simp [hspans]⟩
  | @snoc history call core core' earlier step ih =>
    obtain ⟨core₂, hrun₂, hapart⟩ := ih
    have hdrafts : SiraApi.ofSecond first start call.draftId =
        SiraApi.ofSecond first core call.draftId := by
      unfold SiraApi.ofSecond SellerCore.draft?
      rw [earlier.drafts]
    cases hcall : SiraApi.ofSecond first start call.draftId with
    | false =>
      rw [filter_concat_of_neg (q := fun call : UploadCall =>
        SiraApi.ofSecond first start call.draftId) hcall]
      exact ⟨core₂, hrun₂, hapart.ofFirst (hdrafts ▸ hcall) step⟩
    | true =>
      rw [filter_concat_of_pos (q := fun call : UploadCall =>
        SiraApi.ofSecond first start call.draftId) hcall]
      obtain ⟨core₂', hstep₂, hapart'⟩ := hapart.ofSecond (hdrafts ▸ hcall) step
      exact ⟨core₂', hrun₂.snoc hstep₂, hapart'⟩

end Apart

/-! ## One document of two sellers -/

section Sample

/-- "Data is kept for 30 days." -/
def documentBody : List Nat :=
  [68, 97, 116, 97, 32, 105, 115, 32, 107, 101, 112, 116, 32, 102, 111, 114, 32, 51, 48, 32, 100,
    97, 121, 115, 46]

def documentHash : String := "791b2db31903ef713bd26ae79a330dde681363c73bd4dbeb29b981f1b59e1134"

/-- A service whose `parse_evidence` is that of the document -/
def documentService : SellerService where
  rt := .ascii
  upper := id
  lower := id
  urlsplit := fun _ => none
  evidenceText := fun _ _ _ => .ok ⟨"sha256:" ++ documentHash, [("span_c09c58f13bcff2f81e95a8e9", 1)]⟩
  storesEvidence := true

/-- The upload of the document to a draft by a platform operator -/
def documentUpload (organizationId draftId uuid : String) : UploadCall where
  organizationId := organizationId
  actorId := "operator"
  role := .platformOperator
  draftId := draftId
  upload := ⟨documentBody, "text/plain", "VENDOR_DOCUMENTATION", ["data_retention_days"], none⟩
  stored := ⟨"evidence", "objects/1", "1", "sha256:" ++ documentHash, "text/plain", 25⟩
  given := ⟨0, fun _ => uuid⟩

/-- Two products with a draft each -/
def twoProducts : SellerCore where
  products := ["p1", "p2"].map (fun id => ⟨id, .platformCompiled, .sellerDraft, none, none, 0, none⟩)
  drafts := [("d1", "p1"), ("d2", "p2")].map (fun p =>
    ⟨p.1, p.2, "operator", .sellerDraft, .platformCompiled, 1, "", ⟨.valid, []⟩, none, none, 0⟩)

end Sample

end SiraApi
