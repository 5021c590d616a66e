-- SUMMARY: The draft that a seller call may work on, and the attachment that it may add.
import SiraSeil.Library.Raising
import SiraSeil.SiraApi.SellerService

/-!
# Access to seller drafts

Every operation loads the draft and the product of its call and checks the access of its actor.
-/

namespace SiraApi

open Domain Persistence Sorting Raising

/-- Reviewers and operators have access to every product, editors to those that they own. -/
def HasAccess (t : SellerTransaction) (product : SellerProduct) : Prop :=
  t.role ≠ .sellerEditor ∨ product.ownerActorId = some t.actorId

/-- The draft and the product of a call, with the access of its actor -/
structure DraftOf (core : SellerCore) (t : SellerTransaction) (draftId : String)
    (draft : SellerPackDraft) (product : SellerProduct) : Prop where
  found : core.draft? draftId = some draft
  owned : core.product? draft.productId = some product
  access : HasAccess t product

variable {t : SellerTransaction} {product : SellerProduct} {core : SellerCore} {draftId : String}
  {draft : SellerPackDraft}

theorem requireProductAccess_eq_ok :
    requireProductAccess product t.actorId t.role = .ok () ↔ HasAccess t product := by
  unfold requireProductAccess HasAccess
  cases t.role <;> simp

theorem orNotFound_eq_ok {α : Type} {kind : String} {x : Option α} {a : α} :
    orNotFound kind x = .ok a ↔ x = some a := by
  cases x <;> simp [orNotFound]

theorem draftFor_eq_ok {accepts : SellerEvidenceState → Bool} {refusal : QualificationError} :
    draftFor t.actorId t.role draftId accepts refusal core = .ok (draft, product) ↔
      DraftOf core t draftId draft product ∧ accepts draft.state = true := by
  unfold draftFor
  constructor
  · intro h
    obtain ⟨found, hfound, h⟩ := bind_eq_ok.mp h
    obtain ⟨owned, howned, h⟩ := bind_eq_ok.mp h
    obtain ⟨_, haccess, h⟩ := bind_eq_ok.mp h
    split at h
    · next haccepts =>
      cases h
      exact ⟨⟨orNotFound_eq_ok.mp hfound, orNotFound_eq_ok.mp howned,
        requireProductAccess_eq_ok.mp haccess⟩, haccepts⟩
    · cases h
  · rintro ⟨⟨hfound, hproduct, haccess⟩, haccepts⟩
    rw [hfound, orNotFound, ok_bind, hproduct, orNotFound, ok_bind,
      requireProductAccess_eq_ok.mpr haccess, ok_bind, if_pos haccepts]
    rfl

/-- A draft that can be edited -/
def Editable (draft : SellerPackDraft) : Prop := draft.state ∈ editableStates

theorem editableDraft_eq_ok {message : String} :
    editableDraft t.actorId t.role draftId message core = .ok (draft, product) ↔
      DraftOf core t draftId draft product ∧ Editable draft := by
  unfold editableDraft
  rw [draftFor_eq_ok, decide_eq_true_eq]
  rfl

theorem mem_of_draft
    (h : core.draft? draftId = some draft) : draft ∈ core.drafts ∧ draft.id = draftId :=
  ⟨List.mem_of_find?_eq_some h, by simpa using List.find?_some h⟩

theorem mem_of_product {productId : String} (h : core.product? productId = some product) :
    product ∈ core.products ∧ product.id = productId :=
  ⟨List.mem_of_find?_eq_some h, by simpa using List.find?_some h⟩

/-- An attachment that repeats no key -/
structure NewAttachment (core : SellerCore) (record : SellerEvidenceAttachment) : Prop where
  id : ∀ a ∈ core.attachments, a.id ≠ record.id
  source : ∀ a ∈ core.attachments, a.draftId = record.draftId →
    a.sourceReferenceHash ≠ record.sourceReferenceHash
  size : ∀ o, record.object = some o → o.sizeBytes ≠ 0

theorem addAttachment_eq_ok {core' : SellerCore} {record : SellerEvidenceAttachment} :
    core.addAttachment record = .ok core' ↔ NewAttachment core record ∧
      core' = { core with attachments := core.attachments ++ [record] } := by
  unfold SellerCore.addAttachment
  simp only [check_bind_eq_ok, constrain_eq_ok, List.any_eq_false, decide_eq_true_eq,
    not_and, pure_eq_ok, Option.any_eq_false, decide_eq_false_iff_not]
  constructor
  · rintro ⟨hid, hsource, hsize, rfl⟩
    exact ⟨⟨hid, hsource, hsize⟩, rfl⟩
  · rintro ⟨⟨hid, hsource, hsize⟩, rfl⟩
    exact ⟨hid, hsource, hsize, rfl⟩

theorem checkStored_eq_ok {upload : UploadBody} {stored : StoredEvidenceObject}
    (h : checkStored upload stored = .ok ()) : stored.sha256 = upload.objectChecksum := by
  unfold checkStored at h
  split at h
  · cases h
  · next hstored =>
    rw [not_or] at hstored
    exact not_not.mp hstored.1

end SiraApi
