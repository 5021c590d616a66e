-- SUMMARY: What a release manifest discloses: two sources that differ only in redacted or unreleased data cannot be told apart, and a revoked manifest discloses nothing.
import SiraSeil.Domain.Digests
import SiraSeil.Domain.PrivatePlane

/-!
# Releases

`ReleaseManifest.release` of `domain/exchange_contracts.py` selects the fields a
manifest names, transforms them and passes the result through the private-plane
filter. What it reads of a source is which of those fields the source has, and the
values of those it does not redact. `revoke` builds the manifest again with another
status, which its approval does not cover.
-/

namespace Domain

open Raising

section Reads

variable {rt : Runtime} {lower repr : String → String} {m : ReleaseManifest}
  {source source' released : Fields} {now : Datetime}

/-- Two sources hold the same fields of a manifest, each with one value unless it is
    redacted. -/
structure ReleaseManifest.SameHeld (m : ReleaseManifest) (source source' : Fields) : Prop where
  held : ∀ field ∈ m.fields, (source.lookup field).isSome = (source'.lookup field).isSome
  same : ∀ field ∈ m.fields, m.transformations.lookup field ≠ some .redact →
    source.lookup field = source'.lookup field

theorem ReleaseManifest.SameHeld.missing_eq (h : m.SameHeld source source') :
    m.missing source = m.missing source' := by
  refine congrArg Sorting.sortedSet (List.filter_congr fun field hfield => ?_)
  rw [← Option.not_isSome, ← Option.not_isSome, h.held field hfield]

theorem releaseField_redact {transformations : List (String × Transformation)} {field : String}
    (h : transformations.lookup field = some .redact) (value : Value) :
    releaseField lower transformations field value = .ok (field, .str "[redacted]") := by
  simp [releaseField, h]

theorem releaseField_eq_ok {transformations : List (String × Transformation)} {field : String}
    {value : Value} {entry : String × Value}
    (h : releaseField lower transformations field value = .ok entry) : entry.1 = field := by
  unfold releaseField at h
  split at h <;> cases h <;> rfl

theorem ReleaseManifest.SameHeld.selectField_eq (h : m.SameHeld source source') {field : String}
    (hfield : field ∈ m.fields) :
    selectField lower m.toReleaseManifestData source field =
      selectField lower m.toReleaseManifestData source' field := by
  unfold selectField
  by_cases hredact : m.transformations.lookup field = some .redact
  · have hheld := h.held field hfield
    split
    · next value hvalue =>
      -- both hold the field, and both values read as the redaction
      rw [hvalue, Option.isSome_some, eq_comm, Option.isSome_iff_exists] at hheld
      obtain ⟨value', hvalue'⟩ := hheld
      simp only [hvalue', releaseField_redact hredact]
    · next hnone =>
      rw [hnone, Option.isSome_none, eq_comm, Option.isSome_eq_false_iff, Option.isNone_iff_eq_none]
        at hheld
      simp only [hheld]
  · rw [h.same field hfield hredact]

/-- A release reads of its source no more than `SameHeld` compares. -/
theorem ReleaseManifest.release_congr (h : m.SameHeld source source') :
    m.release rt lower repr source now = m.release rt lower repr source' now := by
  unfold ReleaseManifest.release
  rw [h.missing_eq, mapM_congr fun _ hfield => h.selectField_eq hfield]

theorem ReleaseManifest.release_eq_ok (h : m.release rt lower repr source now = .ok released) :
    m.status = .active ∧ now.micros < m.expiresAt.micros ∧ released.map (·.1) = m.fields ∧
      assertPublicTree rt released = .ok () := by
  unfold ReleaseManifest.release at h
  simp only [check_bind_eq_ok, unless_throw_eq_ok, not_not, not_le] at h
  obtain ⟨-, hactive, htime, -, h⟩ := h
  obtain ⟨selected, hselected, h⟩ := bind_eq_ok.mp h
  obtain ⟨hpublic, h⟩ := check_bind_eq_ok.mp h
  obtain rfl := pure_eq_ok.mp h
  refine ⟨hactive, htime, ?_, hpublic⟩
  rw [map_eq_of_mapM_eq_ok hselected, List.map_id]
  intro field _ entry hentry
  unfold selectField at hentry
  split at hentry
  · exact releaseField_eq_ok hentry
  · cases hentry

end Reads

/-! ## Revocation -/

section Revocation

variable {rt : Runtime} {data : ReleaseManifestData} {m revoked : ReleaseManifest}

theorem ReleaseManifest.new_eq_ok :
    ReleaseManifest.new rt data = .ok m ↔
      data.validate rt = .ok () ∧ contentHash rt data.hashPayload = .ok m.manifestHash ∧
        m.toReleaseManifestData = data := by
  unfold ReleaseManifest.new
  rw [check_bind_eq_ok, bind_eq_ok]
  refine and_congr_right fun _ => ⟨?_, ?_⟩
  · rintro ⟨hash, hhash, h⟩
    obtain rfl := pure_eq_ok.mp h
    exact ⟨exchangeHash_eq_ok.mp hhash, rfl⟩
  · rintro ⟨hhash, rfl⟩
    exact ⟨m.manifestHash, exchangeHash_eq_ok.mpr hhash, rfl⟩

theorem ReleaseManifestData.canonical_status {status : ReleaseStatus}
    (h : data.hashPayload.Canonical) : { data with status := status }.hashPayload.Canonical := by
  simp only [hashPayload, approvalPayload, Value.canonical_obj, List.forall_mem_append,
    List.forall_mem_cons] at h ⊢
  exact ⟨h.1, h.2.1, h.2.2.1, Value.canonical_str _, h.2.2.2.2⟩

theorem ReleaseManifest.exists_revoke (hm : ReleaseManifest.new rt data = .ok m) :
    ∃ revoked, m.revoke rt = .ok revoked ∧
      revoked.toReleaseManifestData = { m.toReleaseManifestData with status := .revoked } := by
  unfold ReleaseManifest.revoke
  split
  · next hrevoked => exact ⟨m, rfl, by rw [← hrevoked]⟩
  · obtain ⟨hvalid, hhash, rfl⟩ := ReleaseManifest.new_eq_ok.mp hm
    have hcanonical : { m.toReleaseManifestData with status := .revoked }.hashPayload.Canonical :=
      ReleaseManifestData.canonical_status (contentHash_eq_ok.mp hhash).1
    obtain ⟨hash, hrehashed⟩ : ∃ hash, contentHash rt
        { m.toReleaseManifestData with status := .revoked }.hashPayload = .ok hash :=
      exists_contentHash_eq_ok.mpr hcanonical
    exact ⟨⟨{ m.toReleaseManifestData with status := .revoked }, hash⟩,
      ReleaseManifest.new_eq_ok.mpr ⟨hvalid, hrehashed, rfl⟩, rfl⟩

end Revocation

/-! ## The disclosure of a manifest -/

/-- What a manifest discloses, and how it is withdrawn. -/
structure ReleaseManifest.Discloses (rt : Runtime) (lower repr : String → String)
    (m : ReleaseManifest) : Prop where
  /-- The result tells nothing of a redacted value or of a field that is not released. -/
  noninterfering : ∀ source source' now, m.SameHeld source source' →
    m.release rt lower repr source now = m.release rt lower repr source' now
  /-- The result has the fields of the manifest, each once. -/
  minimal : ∀ source now released, m.release rt lower repr source now = .ok released →
    released.map (·.1) = m.fields ∧ m.fields.Nodup
  /-- No name of the private plane is released, at any depth. -/
  disclosable : ∀ source now released, m.release rt lower repr source now = .ok released →
    ∀ key ∈ Value.fieldKeys released, privateKey rt key = false
  authorized : ∀ source now released, m.release rt lower repr source now = .ok released →
    m.status = .active ∧ now.micros < m.expiresAt.micros
  /-- Revocation returns, keeps what was approved and is idempotent. -/
  revocable : ∃ revoked, m.revoke rt = .ok revoked ∧
    revoked.toReleaseManifestData = { m.toReleaseManifestData with status := .revoked } ∧
    revoked.approvalPayload = m.approvalPayload ∧
    revoked.approvedPayloadHash = m.approvedPayloadHash ∧ revoked.revoke rt = .ok revoked ∧
    ∀ source now released, revoked.release rt lower repr source now ≠ .ok released
  withdrawn : m.status = .revoked →
    ∀ source now released, m.release rt lower repr source now ≠ .ok released

theorem release_discloses {rt : Runtime} {data : ReleaseManifestData} {m : ReleaseManifest}
    (lower repr : String → String) (hm : ReleaseManifest.new rt data = .ok m) :
    m.Discloses rt lower repr := by
  have hwithdrawn : ∀ manifest : ReleaseManifest, manifest.status = .revoked →
      ∀ source now released, manifest.release rt lower repr source now ≠ .ok released := by
    intro manifest hrevoked source now released h
    simp [(ReleaseManifest.release_eq_ok h).1] at hrevoked
  refine ⟨fun _ _ _ h => ReleaseManifest.release_congr h, ?_, ?_, ?_, ?_, hwithdrawn m⟩
  · intro source now released h
    obtain ⟨-, -, hfields, -⟩ := ReleaseManifest.release_eq_ok h
    refine ⟨hfields, ?_⟩
    obtain ⟨hvalid, -, rfl⟩ := ReleaseManifest.new_eq_ok.mp hm
    unfold ReleaseManifestData.validate at hvalid
    simp only [check_bind_eq_ok, ensure_eq_ok, decide_eq_true_eq] at hvalid
    exact hvalid.2.2.2.2.2.1
  · intro source now released h
    exact assertPublicTree_eq_ok.mp (ReleaseManifest.release_eq_ok h).2.2.2
  · intro source now released h
    obtain ⟨hactive, htime, -, -⟩ := ReleaseManifest.release_eq_ok h
    exact ⟨hactive, htime⟩
  · obtain ⟨revoked, hrevoke, hdata⟩ := ReleaseManifest.exists_revoke hm
    have hstatus : revoked.status = .revoked := by rw [hdata]
    refine ⟨revoked, hrevoke, hdata, by rw [hdata]; rfl, by rw [hdata], ?_, hwithdrawn revoked hstatus⟩
    simp [ReleaseManifest.revoke, hstatus]

/-! ## A manifest -/

namespace Sample

def releaseDraft : ReleaseManifestData where
  manifestId := "manifest"
  caseId := "case"
  owner := .buyer
  recipient := .seller
  purpose := "Evaluate fit."
  fields := ["need", "contact"]
  transformations := [("contact", .redact)]
  sourceVersions := [("brief", 1)]
  expiresAt := ⟨10, true⟩
  approvalId := "approval"
  approvedPayloadHash := ""

def releaseData : ReleaseManifestData :=
  { releaseDraft with
    approvedPayloadHash := "sha256:" ++ Runtime.evaluated.hexdigest (.obj releaseDraft.approvalPayload) }

end Sample

theorem release_discloses_sample :
    ∃ m, ReleaseManifest.new .ascii Sample.releaseData = .ok m ∧
      m.Discloses .ascii Runtime.lowerAscii (fun text => "'" ++ text ++ "'") := by
  have hok : (ReleaseManifest.new .ascii Sample.releaseData).isOk = true := by
    rw [Runtime.ascii_eq]
    decide +kernel
  obtain ⟨m, hm⟩ := exists_of_isOk hok
  exact ⟨m, hm, release_discloses _ _ hm⟩

end Domain
