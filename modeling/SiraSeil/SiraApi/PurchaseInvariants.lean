-- SUMMARY: What every run of purchase transactions keeps: an approval request has the hash and the status of its intent, its roles approve in their frozen order, and a handoff carries the terms of its intent.
import SiraSeil.SiraApi.PurchaseRuns

/-!
# Invariants of purchase runs

Each invariant is proved of one step of `PurchaseStep`, and of runs by
`Transactions.run_induction`.
-/

namespace SiraApi

open Domain Persistence PurchaseDb PurchaseCore

/-! ## Approvals and their intents -/

/-- An approval request is of an intent: one tenant, one hash, one status. -/
structure Binds (a : ApprovalRequest) (i : PurchaseIntent) : Prop where
  of : i.id = a.purchaseIntentId
  tenant : i.organizationId = a.organizationId
  hash : i.intentHash = a.intentHash
  status : i.approvalStatus = a.status

/-- The roles that approved are the first of the frozen ones, and all of them in an approved
    request. -/
structure InStages (a : ApprovalRequest) : Prop where
  distinct : a.requiredRoles.Nodup
  first : a.approvedRoles <+: a.requiredRoles
  complete : a.status = .approved → a.approvedRoles = a.requiredRoles
  started : a.status ≠ .notRequested

structure Consistent (core : PurchaseCore) : Prop where
  ids : KeyedIds core
  bound : ∀ a ∈ core.approvals, ∃ i ∈ core.intents, Binds a i
  single : Table.Keyed (fun (a : ApprovalRequest) => a.purchaseIntentId) core.approvals
  requested : ∀ i ∈ core.intents, i.approvalStatus = .notRequested ∨
    i.approvalStatus = .superseded ∨ ∃ a ∈ core.approvals, Binds a i
  stages : ∀ a ∈ core.approvals, InStages a

section Steps

variable {s : WorkflowService} {t : PurchaseTransaction} {organizationId : String}
  {core core' : PurchaseCore}

theorem Consistent.binds (h : Consistent core) {a : ApprovalRequest} {i : PurchaseIntent}
    (ha : a ∈ core.approvals) (hi : i ∈ core.intents) (hof : i.id = a.purchaseIntentId) :
    Binds a i := by
  obtain ⟨row, hrow, hbinds⟩ := h.bound a ha
  rwa [h.ids.intents.eq hi hrow (hof.trans hbinds.of.symm)]

theorem Consistent.congr (h : Consistent core) (hintents : core'.intents = core.intents)
    (happrovals : core'.approvals = core.approvals)
    (hhandoffs : Table.Keyed (fun (x : PaymentHandoff) => x.id) core'.handoffs) :
    Consistent core' where
  ids := ⟨hintents ▸ h.ids.intents, happrovals ▸ h.ids.approvals, hhandoffs⟩
  bound := by
    rw [hintents, happrovals]
    exact h.bound
  single := happrovals ▸ h.single
  requested := by
    rw [hintents, happrovals]
    exact h.requested
  stages := happrovals ▸ h.stages

variable {intent : PurchaseIntent} {approval : ApprovalRequest} {role : String}

theorem Consistent.addIntent (h : Consistent core) (hfresh : ∀ i ∈ core.intents, i.id ≠ intent.id)
    (hstatus : intent.approvalStatus = .notRequested) :
    Consistent { core with intents := core.intents ++ [intent] } where
  ids := ⟨h.ids.intents.append hfresh, h.ids.approvals, h.ids.handoffs⟩
  bound := by
    intro a ha
    obtain ⟨i, hi, hbinds⟩ := h.bound a ha
    exact ⟨i, List.mem_append_left _ hi, hbinds⟩
  single := h.single
  requested := by
    intro i hi
    rcases List.mem_append.mp hi with hi | hi
    · exact h.requested i hi
    · rw [List.mem_singleton.mp hi]
      exact .inl hstatus
  stages := h.stages

theorem Consistent.request (h : Consistent core) (hintent : intent ∈ core.intents)
    (hnone : intent.approvalStatus = .notRequested) (hof : approval.purchaseIntentId = intent.id)
    (htenant : approval.organizationId = intent.organizationId)
    (hhash : approval.intentHash = intent.intentHash) (hpending : approval.status = .pending)
    (hroles : approval.requiredRoles.Nodup) (hstart : approval.approvedRoles = [])
    (hfresh : ∀ a ∈ core.approvals, a.id ≠ approval.id) :
    Consistent { core with
      approvals := core.approvals ++ [approval]
      intents := Table.update (·.id) intent.id (fun i => { i with
        approvalStatus := .pending }) core.intents } := by
  have hother : ∀ a ∈ core.approvals, a.purchaseIntentId ≠ intent.id := by
    intro a ha hid
    have hstatus := (h.binds ha hintent hid.symm).status
    exact (h.stages a ha).started (hstatus.symm.trans hnone)
  have hbinds : Binds approval { intent with approvalStatus := .pending } :=
    ⟨hof.symm, htenant.symm, hhash.symm, hpending.symm⟩
  refine ⟨⟨h.ids.intents.update (fun _ => rfl), h.ids.approvals.append hfresh, h.ids.handoffs⟩,
    ?bound, ?single, ?requested, ?stages⟩
  case bound =>
    intro a ha
    rcases List.mem_append.mp ha with ha | ha
    · obtain ⟨i, hi, hbinds⟩ := h.bound a ha
      have hne : i.id ≠ intent.id := fun hid => hother a ha (hbinds.of.symm.trans hid)
      exact ⟨i, Table.mem_update.mpr (.inr ⟨hi, hne⟩), hbinds⟩
    · rw [List.mem_singleton.mp ha]
      exact ⟨_, Table.mem_update.mpr (.inl ⟨intent, hintent, rfl, rfl⟩), hbinds⟩
  case single => exact h.single.append (fun a ha => hof ▸ hother a ha)
  case requested =>
    intro i hi
    rcases Table.mem_update.mp hi with ⟨row, hrow, hid, rfl⟩ | ⟨hi, -⟩
    · rw [h.ids.intents.eq hrow hintent hid]
      exact .inr (.inr ⟨approval, List.mem_append_right _ List.mem_cons_self, hbinds⟩)
    · refine (h.requested i hi).imp_right (Or.imp_right ?_)
      rintro ⟨a, ha, hbinds⟩
      exact ⟨a, List.mem_append_left _ ha, hbinds⟩
  case stages =>
    intro a ha
    rcases List.mem_append.mp ha with ha | ha
    · exact h.stages a ha
    · rw [List.mem_singleton.mp ha]
      refine ⟨hroles, hstart ▸ List.nil_prefix, ?_, ?_⟩
      · rw [hpending]
        nofun
      · rw [hpending]
        nofun

theorem Consistent.settle (h : Consistent core) (next : ApprovalRequest)
    (happroval : approval ∈ core.approvals) (hintent : intent ∈ core.intents)
    (hof : intent.id = approval.purchaseIntentId) (hid : next.id = approval.id)
    (hnextOf : next.purchaseIntentId = approval.purchaseIntentId)
    (htenant : next.organizationId = approval.organizationId)
    (hhash : next.intentHash = approval.intentHash) (hstages : InStages next)
    (hhandoffs : Table.Keyed (fun (x : PaymentHandoff) => x.id) core'.handoffs)
    (happrovals : core'.approvals =
      Table.update (·.id) approval.id (fun _ => next) core.approvals)
    (hintents : core'.intents = Table.update (·.id) intent.id (fun i => { i with
      approvalStatus := next.status }) core.intents) : Consistent core' := by
  have hsame : ∀ a ∈ core.approvals, a.id = approval.id → a = approval := fun a ha hkey =>
    h.ids.approvals.eq ha happroval hkey
  have hbefore := h.binds happroval hintent hof
  have hbinds : Binds next { intent with approvalStatus := next.status } :=
    ⟨hof.trans hnextOf.symm, hbefore.tenant.trans htenant.symm, hbefore.hash.trans hhash.symm, rfl⟩
  have hmap : ∀ {κ : Type} (view : ApprovalRequest → κ), view next = view approval →
      core'.approvals.map view = core.approvals.map view := by
    intro κ view hview
    rw [happrovals]
    unfold Table.update
    rw [List.map_map]
    refine List.map_congr_left (fun a ha => ?_)
    simp only [Function.comp]
    split
    · next hkey => rw [hsame a ha hkey, hview]
    · rfl
  refine ⟨⟨?intents, ?approvals, hhandoffs⟩, ?bound, ?single, ?requested, ?stages⟩
  case intents =>
    rw [hintents]
    exact h.ids.intents.update (fun _ => rfl)
  case approvals =>
    unfold Table.Keyed
    rw [hmap _ hid]
    exact h.ids.approvals
  case single =>
    unfold Table.Keyed
    rw [hmap _ hnextOf]
    exact h.single
  case bound =>
    rw [happrovals, hintents]
    intro a ha
    rcases Table.mem_update.mp ha with ⟨row, -, -, rfl⟩ | ⟨ha, hne⟩
    · exact ⟨_, Table.mem_update.mpr (.inl ⟨intent, hintent, rfl, rfl⟩), hbinds⟩
    · obtain ⟨i, hi, hother⟩ := h.bound a ha
      have hkey : i.id ≠ intent.id := by
        intro hkey
        rw [h.single.eq ha happroval (hother.of.symm.trans (hkey.trans hof))] at hne
        exact hne rfl
      exact ⟨i, Table.mem_update.mpr (.inr ⟨hi, hkey⟩), hother⟩
  case requested =>
    rw [happrovals, hintents]
    intro i hi
    rcases Table.mem_update.mp hi with ⟨row, hrow, hkey, rfl⟩ | ⟨hi, hkey⟩
    · rw [h.ids.intents.eq hrow hintent hkey]
      exact .inr (.inr ⟨next, Table.mem_update.mpr (.inl ⟨approval, happroval, rfl, rfl⟩), hbinds⟩)
    · refine (h.requested i hi).imp_right (Or.imp_right ?_)
      rintro ⟨a, ha, hother⟩
      have hne : a.id ≠ approval.id := by
        intro hid
        rw [hsame a ha hid] at hother
        exact hkey (hother.of.trans hof.symm)
      exact ⟨a, Table.mem_update.mpr (.inr ⟨ha, hne⟩), hother⟩
  case stages =>
    rw [happrovals]
    intro a ha
    rcases Table.mem_update.mp ha with ⟨row, -, -, rfl⟩ | ⟨ha, -⟩
    · exact hstages
    · exact h.stages a ha

theorem Consistent.ends (h : Consistent core)
    (hof : BoundApproval core organizationId approval intent) (status : ApprovalStatus)
    (hdead : status ≠ .approved ∧ status ≠ .notRequested)
    (hhandoffs : Table.Keyed (fun (x : PaymentHandoff) => x.id) core'.handoffs)
    (happrovals : core'.approvals = (withEnd core approval.id intent.id status).approvals)
    (hintents : core'.intents = (withEnd core approval.id intent.id status).intents) :
    Consistent core' := by
  obtain ⟨hdistinct, hfirst, -, -⟩ := h.stages approval hof.mem
  refine h.settle { approval with status := status } hof.mem hof.intentMem hof.of rfl rfl rfl rfl
    ⟨hdistinct, hfirst, fun happroved => absurd happroved hdead.1, hdead.2⟩ hhandoffs ?_ hintents
  rw [happrovals]
  refine List.map_congr_left (fun a ha => ?_)
  split
  · next hid => rw [h.ids.approvals.eq ha hof.mem hid]
  · rfl

theorem InStages.withRole (h : InStages approval)
    (hnext : approval.requiredRoles[approval.approvedRoles.length]? = some role) :
    role ∉ approval.approvedRoles ∧ approval.approvedRoles ++ [role] <+: approval.requiredRoles := by
  obtain ⟨rest, hrest⟩ := h.first
  cases rest with
  | nil =>
    rw [← hrest, List.append_nil, List.getElem?_eq_none (Nat.le_refl _)] at hnext
    cases hnext
  | cons next rest =>
    rw [← hrest, List.getElem?_append_right (Nat.le_refl _), Nat.sub_self] at hnext
    obtain rfl : next = role := Option.some.inj hnext
    constructor
    · intro hmem
      have hnodup := h.distinct
      rw [← hrest, List.nodup_append] at hnodup
      exact hnodup.2.2 next hmem next List.mem_cons_self rfl
    · exact ⟨rest, by rw [List.append_assoc, List.singleton_append, hrest]⟩

theorem staged_eq (hnew : role ∉ approval.approvedRoles) :
    staged approval role = { approval with
      approvedRoles := approval.approvedRoles ++ [role]
      status := if approval.approvedRoles ++ [role] = approval.requiredRoles then .approved
        else approval.status } := by
  unfold staged SiraApi.withRole
  rw [if_neg hnew]
  dsimp only
  split <;> rfl

theorem Consistent.withStage (h : Consistent core)
    (hof : BoundApproval core organizationId approval intent)
    (hnext : approval.requiredRoles[approval.approvedRoles.length]? = some role)
    (hhandoffs : core'.handoffs = core.handoffs)
    (happrovals : core'.approvals = (withStage core approval intent role).approvals)
    (hintents : core'.intents = (SiraApi.withStage core approval intent role).intents) :
    Consistent core' := by
  have hstages := h.stages approval hof.mem
  obtain ⟨hnew, hfirst⟩ := hstages.withRole hnext
  have hrow := staged_eq hnew
  have hbinds := h.binds hof.mem hof.intentMem hof.of
  refine h.settle (staged approval role) hof.mem hof.intentMem hof.of ?_ ?_ ?_ ?_ ?_
    (hhandoffs ▸ h.ids.handoffs) happrovals ?_
  case refine_6 =>
    rw [hintents]
    unfold SiraApi.withStage SiraApi.withRole
    rw [if_neg hnew, hrow]
    dsimp only
    split
    · rfl
    · symm
      apply Table.update_eq_self
      intro i hi hid
      rw [h.ids.intents.eq hi hof.intentMem hid, ← hbinds.status]
  all_goals rw [hrow]
  refine ⟨hstages.distinct, hfirst, fun happroved => ?_, ?_⟩
  · dsimp only at happroved ⊢
    split at happroved
    · next hlast => exact hlast
    · -- An approved request has all its roles, so that no stage comes next.
      have hall := hstages.complete happroved
      rw [hall, List.getElem?_eq_none (Nat.le_refl _)] at hnext
      cases hnext
  · dsimp only
    split
    · rintro ⟨⟩
    · exact hstages.started

theorem Consistent.supersede (h : Consistent core)
    (hnone : ∀ a ∈ core.approvals, a.purchaseIntentId ≠ intent.id)
    (hhandoffs : Table.Keyed (fun (x : PaymentHandoff) => x.id) core'.handoffs)
    (happrovals : core'.approvals = core.approvals)
    (hintents : core'.intents = Table.update (·.id) intent.id (fun i => { i with
      approvalStatus := .superseded }) core.intents) : Consistent core' := by
  refine ⟨⟨?intents, happrovals ▸ h.ids.approvals, hhandoffs⟩, ?bound, happrovals ▸ h.single,
    ?requested, happrovals ▸ h.stages⟩
  case intents =>
    rw [hintents]
    exact h.ids.intents.update (fun _ => rfl)
  case bound =>
    rw [happrovals, hintents]
    intro a ha
    obtain ⟨i, hi, hbinds⟩ := h.bound a ha
    have hne : i.id ≠ intent.id := fun hid => hnone a ha (hbinds.of.symm.trans hid)
    exact ⟨i, Table.mem_update.mpr (.inr ⟨hi, hne⟩), hbinds⟩
  case requested =>
    rw [happrovals, hintents]
    intro i hi
    rcases Table.mem_update.mp hi with ⟨row, -, -, rfl⟩ | ⟨hi, -⟩
    · exact .inr (.inl rfl)
    · exact h.requested i hi

theorem Consistent.retire (h : Consistent core) (hintent : intent ∈ core.intents)
    (htenant : intent.organizationId = organizationId) :
    Consistent (core.retire organizationId intent) := by
  have hhandoffs : Table.Keyed (fun (x : PaymentHandoff) => x.id)
      (core.retire organizationId intent).handoffs := by
    unfold Table.Keyed PurchaseCore.retire
    rw [List.map_map]
    refine Eq.mpr (congrArg List.Nodup (List.map_congr_left (fun x _ => ?_))) h.ids.handoffs
    simp only [Function.comp]
    split <;> rfl
  by_cases hlive : ApprovalIsLive intent.approvalStatus
  case neg => exact h.congr (if_neg hlive) (if_neg hlive) hhandoffs
  by_cases hrequest : ∃ a ∈ core.approvals, a.purchaseIntentId = intent.id
  · obtain ⟨approval, happroval, hof⟩ := hrequest
    have hbinds := h.binds happroval hintent hof.symm
    have hopen : approval.status = .pending ∨ approval.status = .approved := by
      rcases hlive with hnone | hlive
      · exact absurd (hbinds.status.symm.trans hnone) (h.stages approval happroval).started
      · rwa [hbinds.status] at hlive
    have htenantOf : approval.organizationId = organizationId := hbinds.tenant.symm.trans htenant
    refine h.ends ⟨happroval, hintent, hof.symm, htenantOf, htenant⟩ .superseded ⟨nofun, nofun⟩
      hhandoffs ?_ (if_pos hlive)
    refine (if_pos hlive).trans (List.map_congr_left (fun a ha => ?_))
    have hiff : (a.organizationId = organizationId ∧ a.purchaseIntentId = intent.id ∧
        (a.status = .pending ∨ a.status = .approved)) ↔ a.id = approval.id := by
      constructor
      · rintro ⟨-, hid, -⟩
        rw [h.single.eq ha happroval (hid.trans hof.symm)]
      · intro hid
        rw [h.ids.approvals.eq ha happroval hid]
        exact ⟨htenantOf, hof, hopen⟩
    simp only [hiff]
  · have hnone : ∀ a ∈ core.approvals, a.purchaseIntentId ≠ intent.id := fun a ha hid =>
      hrequest ⟨a, ha, hid⟩
    refine h.supersede hnone hhandoffs ?_ (if_pos hlive)
    refine (if_pos hlive).trans ((List.map_congr_left (fun a ha => ?_)).trans (List.map_id _))
    exact if_neg (fun hof => hnone a ha hof.2.1)

theorem Consistent.step (h : Consistent core) (hstep : PurchaseStep s t core core') :
    Consistent core' := by
  cases hstep with
  | stays => exact h
  | discovers => exact h.congr rfl rfl h.ids.handoffs
  | accepts _ _ _ _ hretires =>
    refine hretires.preserves (fun c c' hc hone => ?_) (h.congr rfl rfl h.ids.handoffs)
    cases hone with
    | of hintent htenant => exact hc.retire hintent htenant
  | selects _ _ _ _ hretires =>
    refine hretires.preserves (fun c c' hc hone => ?_) (h.congr rfl rfl h.ids.handoffs)
    cases hone with
    | of hintent htenant => exact hc.retire hintent htenant
  | locks _ _ _ _ hfresh hstatus => exact h.addIntent hfresh hstatus
  | requests _ hintent hnone hof htenant hhash hpending hroles hstart hfresh =>
    exact h.request hintent hnone hof htenant hhash hpending hroles.2 hstart hfresh
  | stages _ hof _ _ _ hnext => exact h.withStage hof hnext rfl rfl rfl
  | rejects _ hof => exact h.ends hof .rejected ⟨nofun, nofun⟩ h.ids.handoffs rfl rfl
  | revokes _ hof =>
    refine h.ends hof .revoked ⟨nofun, nofun⟩ ?_ rfl rfl
    dsimp only
    unfold withoutReady
    split
    · exact h.ids.handoffs.update (fun _ => rfl)
    · exact h.ids.handoffs
  | expires hof => exact h.ends hof .expired ⟨nofun, nofun⟩ h.ids.handoffs rfl rfl
  | hands _ _ _ _ _ _ _ hfresh => exact h.congr rfl rfl (h.ids.handoffs.append hfresh)
  | opens _ hhandoff => exact h.congr rfl rfl (h.ids.handoffs.replace rfl)

end Steps

/-! ## What rows keep -/

/-- A later row of an intent: its status alone may differ. -/
def LaterIntent (i i' : PurchaseIntent) : Prop :=
  i' = { i with approvalStatus := i'.approvalStatus }

/-- A later row of an approval request: its status and the roles that approved may differ. -/
def LaterApproval (a a' : ApprovalRequest) : Prop :=
  a' = { a with
    status := a'.status
    approvedRoles := a'.approvedRoles }

/-- A later row of a handoff: while it can be opened, its status may differ, and when it was
    opened. -/
def LaterHandoff (x x' : PaymentHandoff) : Prop :=
  x' = { x with
    status := x'.status
    openedAt := x'.openedAt } ∧ (x.status ≠ .ready → x' = x)

theorem LaterIntent.refl (i : PurchaseIntent) : LaterIntent i i := rfl

theorem LaterApproval.refl (a : ApprovalRequest) : LaterApproval a a := rfl

theorem LaterHandoff.refl (x : PaymentHandoff) : LaterHandoff x x :=
  ⟨rfl, fun _ => rfl⟩

theorem LaterIntent.trans {i j k : PurchaseIntent} (h : LaterIntent i j) (h' : LaterIntent j k) :
    LaterIntent i k := by
  unfold LaterIntent at *
  rw [h', h]

theorem LaterApproval.trans {a b c : ApprovalRequest} (h : LaterApproval a b)
    (h' : LaterApproval b c) : LaterApproval a c := by
  unfold LaterApproval at *
  rw [h', h]

theorem LaterHandoff.trans {x y z : PaymentHandoff} (h : LaterHandoff x y)
    (h' : LaterHandoff y z) : LaterHandoff x z := by
  refine ⟨?_, fun hclosed => ?_⟩
  · rw [h'.1, h.1]
  · have hsame := h.2 hclosed
    exact (h'.2 (hsame ▸ hclosed)).trans hsame

/-- Intents and approval requests stay, with their terms. -/
structure KeepsTerms (core core' : PurchaseCore) : Prop where
  intents : ∀ i ∈ core.intents, ∃ i' ∈ core'.intents, LaterIntent i i'
  approvals : ∀ a ∈ core.approvals, ∃ a' ∈ core'.approvals, LaterApproval a a'

section Keeping

variable {s : WorkflowService} {t : PurchaseTransaction} {organizationId : String}
  {core core' core'' : PurchaseCore}

theorem KeepsTerms.of_eq (hintents : core'.intents = core.intents)
    (happrovals : core'.approvals = core.approvals) : KeepsTerms core core' where
  intents := fun i hi => ⟨i, hintents ▸ hi, .refl i⟩
  approvals := fun a ha => ⟨a, happrovals ▸ ha, .refl a⟩

theorem KeepsTerms.trans (h : KeepsTerms core core') (h' : KeepsTerms core' core'') : KeepsTerms core core'' where
  intents := by
    intro i hi
    obtain ⟨j, hj, hij⟩ := h.intents i hi
    obtain ⟨k, hk, hjk⟩ := h'.intents j hj
    exact ⟨k, hk, hij.trans hjk⟩
  approvals := by
    intro a ha
    obtain ⟨b, hb, hab⟩ := h.approvals a ha
    obtain ⟨c, hc, hbc⟩ := h'.approvals b hb
    exact ⟨c, hc, hab.trans hbc⟩

theorem keepsTerms_withEnd {approvalId intentId : String} {status : ApprovalStatus} :
    KeepsTerms core (withEnd core approvalId intentId status) where
  intents := fun i hi => Table.exists_update hi (.refl i) (fun _ => rfl)
  approvals := fun a ha => Table.exists_update ha (.refl a) (fun _ => rfl)

theorem keepsTerms_retire {intent : PurchaseIntent} : KeepsTerms core (core.retire organizationId intent) where
  intents := by
    intro i hi
    unfold PurchaseCore.retire
    dsimp only
    split
    · exact Table.exists_update hi (.refl i) (fun _ => rfl)
    · exact ⟨i, hi, .refl i⟩
  approvals := by
    intro a ha
    unfold PurchaseCore.retire
    dsimp only
    split
    · refine ⟨_, List.mem_map_of_mem ha, ?_⟩
      split
      · rfl
      · exact .refl a
    · exact ⟨a, ha, .refl a⟩

theorem keepsTerms_retires (h : Retires organizationId core core') : KeepsTerms core core' :=
  h.preserves (fun c c' hc hone => by
    cases hone with
    | of _ _ => exact hc.trans keepsTerms_retire) (.of_eq rfl rfl)

theorem keepsTerms_withStage (h : KeyedIds core) {approval : ApprovalRequest} {intent : PurchaseIntent}
    {role : String} (hmem : approval ∈ core.approvals) :
    KeepsTerms core (withStage core approval intent role) where
  intents := by
    intro i hi
    unfold withStage
    dsimp only
    split
    · exact Table.exists_update hi (.refl i) (fun _ => rfl)
    · exact ⟨i, hi, .refl i⟩
  approvals := by
    intro a ha
    refine Table.exists_update ha (.refl a) (fun hid => ?_)
    rw [h.approvals.eq ha hmem hid]
    unfold staged withRole
    dsimp only
    split <;> split <;> rfl

theorem Consistent.keepsTerms (h : Consistent core) (hstep : PurchaseStep s t core core') :
    KeepsTerms core core' := by
  cases hstep with
  | stays => exact .of_eq rfl rfl
  | discovers => exact .of_eq rfl rfl
  | accepts _ _ _ _ hretires => exact .trans (.of_eq (by rfl) (by rfl)) (keepsTerms_retires hretires)
  | selects _ _ _ _ hretires => exact .trans (.of_eq (by rfl) (by rfl)) (keepsTerms_retires hretires)
  | locks => exact ⟨fun i hi => ⟨i, List.mem_append_left _ hi, .refl i⟩, fun a ha => ⟨a, ha, .refl a⟩⟩
  | requests =>
    exact ⟨fun i hi => Table.exists_update hi (.refl i) (fun _ => rfl),
      fun a ha => ⟨a, List.mem_append_left _ ha, .refl a⟩⟩
  | stages _ hof => exact (keepsTerms_withStage h.ids hof.mem).trans (.of_eq rfl rfl)
  | rejects => exact keepsTerms_withEnd.trans (.of_eq rfl rfl)
  | revokes => exact keepsTerms_withEnd.trans (.of_eq rfl rfl)
  | expires => exact keepsTerms_withEnd
  | hands => exact .of_eq rfl rfl
  | opens => exact .of_eq rfl rfl

end Keeping

/-! ## Handoffs -/

/-- A handoff carries the terms of its intent, under the hash that its approval is for, within
    its windows, and its own hash is the one of its fields. -/
structure HandoffTerms (s : WorkflowService) (core : PurchaseCore) (x : PaymentHandoff) : Prop where
  approval : ∃ a ∈ core.approvals, a.id = x.approvalRequestId ∧
    a.purchaseIntentId = x.purchaseIntentId ∧ a.organizationId = x.organizationId ∧
    a.intentHash = x.intentHash ∧ x.expiresAt ≤ a.expiresAt
  intent : ∃ i ∈ core.intents, i.id = x.purchaseIntentId ∧ i.organizationId = x.organizationId ∧
    i.intentHash = x.intentHash ∧ x.amount = i.amount ∧ x.currency = i.currency ∧
    x.recipient = i.merchantName ∧ x.destinationUrl = i.merchantUrl
  window : x.expiresAt ≤ x.createdAt + 900000000
  hashed : contentDigest s.rt (handoffPayload x) = .ok x.handoffHash

/-- Handoffs have their terms, and an approval has at most one. -/
structure HandoffsKept (s : WorkflowService) (core : PurchaseCore) : Prop where
  terms : ∀ x ∈ core.handoffs, HandoffTerms s core x
  single : Table.Keyed (fun (x : PaymentHandoff) => (x.purchaseIntentId, x.approvalRequestId))
    core.handoffs

section Handoffs

variable {s : WorkflowService} {t : PurchaseTransaction} {organizationId : String}
  {core core' : PurchaseCore}

theorem HandoffTerms.later {x x' : PaymentHandoff} (h : HandoffTerms s core x)
    (hkeeps : KeepsTerms core core') (hlater : LaterHandoff x x') : HandoffTerms s core' x' := by
  obtain ⟨a, ha, haid, haof, hatenant, hahash, hatime⟩ := h.approval
  obtain ⟨i, hi, hiid, hitenant, hihash, hterms⟩ := h.intent
  obtain ⟨a', ha', halater⟩ := hkeeps.approvals a ha
  obtain ⟨i', hi', hilater⟩ := hkeeps.intents i hi
  unfold LaterApproval at halater
  unfold LaterIntent at hilater
  rw [hlater.1]
  refine ⟨⟨a', ha', ?_⟩, ⟨i', hi', ?_⟩, h.window, h.hashed⟩
  · rw [halater]
    exact ⟨haid, haof, hatenant, hahash, hatime⟩
  · rw [hilater]
    exact ⟨hiid, hitenant, hihash, hterms⟩

/-- The fields that a handoff is built from are fixed by `checkHandoff`. -/
theorem hashed_of_checkHandoff {x : PaymentHandoff} {handoffHash : String}
    (h : checkHandoff s x = .ok handoffHash) :
    contentDigest s.rt (handoffPayload x) = .ok handoffHash := by
  unfold checkHandoff at h
  simp only [Raising.check_bind_eq_ok] at h
  obtain ⟨-, -, -, -, -, -, -, -, -, -, -, -, h⟩ := h
  exact h

/-- Handoffs come from those there were, and none is added. -/
structure HandoffsFrom (handoffs handoffs' : List PaymentHandoff) : Prop where
  rows : ∀ x' ∈ handoffs', ∃ x ∈ handoffs, LaterHandoff x x'
  pairs : handoffs'.map (fun x => (x.purchaseIntentId, x.approvalRequestId)) =
    handoffs.map (fun x => (x.purchaseIntentId, x.approvalRequestId))

theorem HandoffsFrom.refl (handoffs : List PaymentHandoff) : HandoffsFrom handoffs handoffs :=
  ⟨fun x hx => ⟨x, hx, .refl x⟩, rfl⟩

theorem HandoffsFrom.trans {xs ys zs : List PaymentHandoff} (h : HandoffsFrom xs ys)
    (h' : HandoffsFrom ys zs) : HandoffsFrom xs zs where
  rows := by
    intro z hz
    obtain ⟨y, hy, hyz⟩ := h'.rows z hz
    obtain ⟨x, hx, hxy⟩ := h.rows y hy
    exact ⟨x, hx, hxy.trans hyz⟩
  pairs := h'.pairs.trans h.pairs

theorem handoffsFrom_map {handoffs : List PaymentHandoff} {g : PaymentHandoff → PaymentHandoff}
    (h : ∀ x ∈ handoffs, LaterHandoff x (g x)) : HandoffsFrom handoffs (handoffs.map g) where
  rows := by
    intro x' hx'
    obtain ⟨x, hx, rfl⟩ := List.mem_map.mp hx'
    exact ⟨x, hx, h x hx⟩
  pairs := by
    rw [List.map_map]
    refine List.map_congr_left (fun x hx => ?_)
    rw [Function.comp_apply, (h x hx).1]

theorem handoffsFrom_retires (h : Retires organizationId core core') :
    HandoffsFrom core.handoffs core'.handoffs :=
  h.preserves (I := fun c => HandoffsFrom core.handoffs c.handoffs) (fun c c' hc hone => by
    cases hone with
    | of _ _ =>
      refine hc.trans (handoffsFrom_map (fun x _ => ?_))
      split
      · next hready => exact ⟨rfl, fun hclosed => absurd hready.2.2 hclosed⟩
      · exact .refl x) (.refl core.handoffs)

theorem handoffsFrom_withoutReady (hids : KeyedIds core) {approvalId : String} :
    HandoffsFrom core.handoffs (withoutReady organizationId approvalId core.handoffs) := by
  unfold withoutReady
  split
  · next handoff hfind =>
    refine handoffsFrom_map (fun x hx => ?_)
    split
    · next hid =>
      have hfound := List.find?_some hfind
      have hready : handoff.status = .ready := (of_decide_eq_true hfound).2.2
      rw [hids.handoffs.eq hx (List.mem_of_find?_eq_some hfind) hid]
      exact ⟨rfl, fun hclosed => absurd hready hclosed⟩
    · exact .refl x
  · exact .refl core.handoffs

/-- What a step does to handoffs: they come from those there were, beside the one that is
    prepared. -/
theorem KeyedIds.handoffsFrom (hids : KeyedIds core) (hstep : PurchaseStep s t core core') :
    HandoffsFrom core.handoffs core'.handoffs ∨
      ∃ approval intent handoffHash, BoundApproval core t.organizationId approval intent ∧
        approval.intentHash = intent.intentHash ∧ intent.approvalStatus = .approved ∧
        (∀ x ∈ core.handoffs, x.organizationId = t.organizationId →
          x.purchaseIntentId = intent.id → x.approvalRequestId ≠ approval.id) ∧
        checkHandoff s (newHandoff t.organizationId intent approval t.given) = .ok handoffHash ∧
        core' = { core with handoffs := core.handoffs ++
          [{ newHandoff t.organizationId intent approval t.given with
            handoffHash := handoffHash }] } := by
  cases hstep with
  | accepts _ _ _ _ hretires =>
    have hfrom := handoffsFrom_retires hretires
    exact .inl hfrom
  | selects _ _ _ _ hretires =>
    have hfrom := handoffsFrom_retires hretires
    exact .inl hfrom
  | revokes => exact .inl (handoffsFrom_withoutReady hids)
  | hands _ hof hhash _ happroved _ hnew _ hchecked =>
    exact .inr ⟨_, _, _, hof, hhash, happroved.1, hnew, hchecked, rfl⟩
  | opens _ hhandoff _ _ _ _ hready =>
    refine .inl (handoffsFrom_map (fun x hx => ?_))
    split
    · next hid =>
      rw [hids.handoffs.eq hx hhandoff hid]
      exact ⟨rfl, fun hclosed => absurd hready hclosed⟩
    · exact .refl x
  | stays => exact .inl (.refl _)
  | discovers => exact .inl (.refl _)
  | locks => exact .inl (.refl _)
  | requests => exact .inl (.refl _)
  | stages => exact .inl (.refl _)
  | rejects => exact .inl (.refl _)
  | expires => exact .inl (.refl _)

theorem HandoffsKept.of_from (h : HandoffsKept s core) (hkeeps : KeepsTerms core core')
    (hfrom : HandoffsFrom core.handoffs core'.handoffs) : HandoffsKept s core' where
  terms := by
    intro x' hx'
    obtain ⟨x, hx, hlater⟩ := hfrom.rows x' hx'
    exact (h.terms x hx).later hkeeps hlater
  single := by
    unfold Table.Keyed
    rw [hfrom.pairs]
    exact h.single

theorem terms_newHandoff {approval : ApprovalRequest} {intent : PurchaseIntent}
    {handoffHash : String} (hof : BoundApproval core t.organizationId approval intent)
    (hhash : approval.intentHash = intent.intentHash)
    (hchecked : checkHandoff s (newHandoff t.organizationId intent approval t.given) =
      .ok handoffHash) :
    HandoffTerms s core { newHandoff t.organizationId intent approval t.given with
      handoffHash := handoffHash } where
  approval := ⟨approval, hof.mem, rfl, hof.of.symm, hof.tenant, hhash, Int.min_le_left _ _⟩
  intent := ⟨intent, hof.intentMem, rfl, hof.intentTenant, rfl, rfl, rfl, rfl, rfl⟩
  window := (Int.min_le_right _ _).trans (Int.min_le_right _ _)
  hashed := hashed_of_checkHandoff hchecked

theorem HandoffsKept.step (h : HandoffsKept s core) (hconsistent : Consistent core)
    (hstep : PurchaseStep s t core core') : HandoffsKept s core' := by
  rcases hconsistent.ids.handoffsFrom hstep with hfrom |
    ⟨approval, intent, handoffHash, hof, hhash, -, hnew, hchecked, rfl⟩
  · exact h.of_from (hconsistent.keepsTerms hstep) hfrom
  refine ⟨?terms, h.single.append ?single⟩
  case terms =>
    intro x hx
    rcases List.mem_append.mp hx with hx | hx
    · exact (h.terms x hx).later (.of_eq rfl rfl) (.refl x)
    · rw [List.mem_singleton.mp hx]
      exact (terms_newHandoff hof hhash hchecked).later (.of_eq rfl rfl) (.refl _)
  case single =>
    -- A handoff of the same approval is of the same tenant, where none was found.
    intro x hx hpair
    obtain ⟨hintent, happroval⟩ := Prod.mk.inj hpair
    obtain ⟨i, hi, hid, htenant, -⟩ := (h.terms x hx).intent
    have hrow : i = intent := hconsistent.ids.intents.eq hi hof.intentMem (hid.trans hintent)
    exact hnew x hx (htenant.symm.trans (hrow ▸ hof.intentTenant)) hintent happroval

end Handoffs

/-! ## Runs -/

/-- Tables in which intents may be locked, and no approval was requested yet. -/
structure Unrequested (core : PurchaseCore) : Prop where
  intents : Table.Keyed (fun (i : PurchaseIntent) => i.id) core.intents
  statuses : ∀ i ∈ core.intents, i.approvalStatus = .notRequested
  approvals : core.approvals = []
  approvalEvents : core.approvalEvents = []
  handoffs : core.handoffs = []

section Runs

variable {s : WorkflowService} {db : PurchaseDb}

theorem Unrequested.consistent {core : PurchaseCore} (h : Unrequested core) : Consistent core where
  ids := ⟨h.intents, h.approvals ▸ Table.keyed_nil, h.handoffs ▸ Table.keyed_nil⟩
  bound := by
    rw [h.approvals]
    nofun
  single := h.approvals ▸ Table.keyed_nil
  requested := fun i hi => .inl (h.statuses i hi)
  stages := by
    rw [h.approvals]
    nofun

theorem Unrequested.handoffsKept {core : PurchaseCore} (h : Unrequested core) : HandoffsKept s core where
  terms := by
    rw [h.handoffs]
    nofun
  single := h.handoffs ▸ Table.keyed_nil

theorem purchasesAfter_append (s : WorkflowService) (db : PurchaseDb)
    (run later : List PurchaseTransaction) :
    purchasesAfter s db (run ++ later) = purchasesAfter s (purchasesAfter s db run) later :=
  Transactions.run_append db run later

theorem purchases_induction {I : PurchaseCore → Prop} (hconsistent : Consistent db.core)
    (hkept : HandoffsKept s db.core) (hinit : I db.core)
    (hstep : ∀ t core core', Consistent core → HandoffsKept s core → I core →
      PurchaseStep s t core core' → I core') (run : List PurchaseTransaction) :
    Consistent (purchasesAfter s db run).core ∧ HandoffsKept s (purchasesAfter s db run).core ∧
      I (purchasesAfter s db run).core := by
  refine Transactions.run_induction (I := fun (db : PurchaseDb) => Consistent db.core ∧
    HandoffsKept s db.core ∧ I db.core) (fun t before answer after hbefore hdone => ?_)
    ⟨hconsistent, hkept, hinit⟩ run
  obtain ⟨hconsistent, hkept, hI⟩ := hbefore
  have hone := transact_step hconsistent.ids hdone
  exact ⟨hconsistent.step hone, hkept.step hconsistent hone,
    hstep t before.core after.core hconsistent hkept hI hone⟩

theorem consistent_purchasesAfter (hstart : Unrequested db.core) (run : List PurchaseTransaction) :
    Consistent (purchasesAfter s db run).core :=
  (purchases_induction (s := s) hstart.consistent hstart.handoffsKept trivial
    (fun _ _ _ _ _ _ _ => trivial) run).1

theorem handoffsKept_purchasesAfter (hstart : Unrequested db.core) (run : List PurchaseTransaction) :
    HandoffsKept s (purchasesAfter s db run).core :=
  (purchases_induction hstart.consistent hstart.handoffsKept trivial
    (fun _ _ _ _ _ _ _ => trivial) run).2.1

end Runs

/-- In every state that calls leave, an approval request has the hash and the status of its one
    intent, the roles that approved it are the first of the frozen ones, and whatever is called
    later, its intent and the request itself stay with all their terms. -/
theorem purchase_terms_stand (s : WorkflowService) {db : PurchaseDb} (hstart : Unrequested db.core)
    (run later : List PurchaseTransaction) :
    Consistent (purchasesAfter s db run).core ∧
      KeepsTerms (purchasesAfter s db run).core (purchasesAfter s db (run ++ later)).core := by
  have hconsistent := consistent_purchasesAfter (s := s) hstart run
  have hkept := handoffsKept_purchasesAfter (s := s) hstart run
  refine ⟨hconsistent, ?_⟩
  rw [purchasesAfter_append]
  exact (purchases_induction (I := KeepsTerms (purchasesAfter s db run).core) hconsistent hkept
    (.of_eq rfl rfl) (fun _ _ _ hc _ hkeeps hstep => hkeeps.trans (hc.keepsTerms hstep)) later).2.2

/-! ## A purchase -/

namespace PurchaseSample

/-- 2026-03-01T12:00:00Z -/
def noon : Int := 1772366400000000

def minute : Int := 60000000

/-- The quote of the sample is the only time that is parsed, and its amount the only one that is
    stored. -/
def service : WorkflowService where
  rt := .ascii
  fixtures := true
  fromIsoformat := fun text =>
    if text = "2026-03-01T14:00:00+00:00" then some ⟨noon + 120 * minute, true⟩ else none
  cents := fun value => if textOf (some value) = some "120.00" then some 12000 else none
  https := fun url => startsWith url "https://"

def terms : List (String × Value) :=
  termFields.map (fun field =>
    (field,
      if field = "merchant" then .obj [("name", .str "Acme"), ("url", .str "https://acme.example/")]
      else if field = "quote_id" then .str "quote_1"
      else if field = "quote_version" then .int 1
      else if field = "quote_expires_at" then .str "2026-03-01T14:00:00Z"
      else if field = "amount" then .str "120.00"
      else if field = "currency" then .str "USD"
      else if field = "approval_policy_version" then .int 1
      else .atom .null))

def decision : DecisionRecord where
  id := "dec_1"
  organizationId := "org_buyer"
  purchaseRequestId := "pr_1"
  purchaseBriefId := "pb_1"
  version := 1
  supersedesId := none
  decisionHash := "sha256:2cf24dba5fb0a30e26e83b2ac5b9e29e1b161e5c1fa7425e73043362938b9824"
  selectedSolutionPlanId := some "plan_a"
  ledger := []
  selection := none

def intentHash : String :=
  "sha256:3a4520f84d920a807d7136d73881a9c5e84d45b7331d13363c2ea222f3589614"

/-- The row that a lock of the decision leaves. -/
def intent : PurchaseIntent where
  id := "pi_1"
  organizationId := "org_buyer"
  decisionId := "dec_1"
  decisionHash := decision.decisionHash
  solutionPlanId := "plan_a"
  stackPatchId := "patch_dec_1"
  intentHash := intentHash
  merchantName := "Acme"
  merchantUrl := "https://acme.example/"
  quoteId := "quote_1"
  quoteVersion := 1
  quoteExpiresAt := noon + 120 * minute
  amount := 12000
  currency := "USD"
  payload := [("schema_version", .str "1.0.0"), ("purchase_intent_id", .str "pi_1"),
    ("organization_id", .str "org_buyer"), ("decision_id", .str "dec_1"),
    ("decision_version", .nat 1), ("decision_hash", .str decision.decisionHash),
    ("selection_id", .str "selection_dec_1"), ("solution_plan_id", .str "plan_a"),
    ("stack_patch_id", .str "patch_dec_1")] ++ terms ++
    [("locked_at", instant noon), ("intent_hash", .str intentHash)]
  approvalStatus := .notRequested

/-- A brief that requires approvals of roles. -/
def brief (roles : List String) : PurchaseBriefVersion where
  id := "pb_1"
  organizationId := "org_buyer"
  purchaseRequestId := "pr_1"
  version := 1
  status := "APPROVED"
  payload := [("approval_requirements", .seq (roles.map (fun role =>
    .obj [("role", .str role), ("required", .bool true)])))]
  contentHash := ""
  supersedesId := none

/-- The tables with the intent, before an approval was requested. -/
def locked (roles : List String) : PurchaseDb where
  tables := { organizations := ["org_buyer"] }
  requests := [⟨"pr_1", "org_buyer", "DECISION_READY", some demoScenarioId⟩]
  briefs := [brief roles]
  decisions := [decision]
  intents := [intent]

theorem unrequested_locked (roles : List String) : Unrequested (locked roles).core where
  intents := List.nodup_singleton _
  statuses := fun _ hi => by rw [List.mem_singleton.mp hi]; rfl
  approvals := rfl
  approvalEvents := rfl
  handoffs := rfl

/-- A call of an actor under a key, minutes after noon. The ids that it draws end in its key. -/
def callAt (actorId key : String) (minutes : Int) (call : PurchaseCall) : PurchaseTransaction where
  organizationId := "org_buyer"
  actorId := actorId
  idempotencyKey := key
  call := call
  given := {
    now := noon + minutes * minute
    uuid := fun _ => key
    quoteNow := noon + minutes * minute }

/-- The approval request `apr_k1` of the intent -/
def request : PurchaseTransaction :=
  callAt "dana" "k1" 0 (.createApprovalRequest "pi_1")

def approveAs (actorId key role : String) (minutes : Int) : PurchaseTransaction :=
  callAt actorId key minutes (.approve ⟨[role], true⟩ "apr_k1" ⟨intentHash, role, none⟩)

end PurchaseSample

open PurchaseSample in
theorem purchase_terms_stand_sample :
    Consistent (purchasesAfter service (locked ["ops"]) [request]).core ∧
      KeepsTerms (purchasesAfter service (locked ["ops"]) [request]).core
        (purchasesAfter service (locked ["ops"]) ([request] ++ [approveAs "olga" "k2" "ops" 1])).core :=
  purchase_terms_stand service (unrequested_locked ["ops"]) [request] [approveAs "olga" "k2" "ops" 1]

end SiraApi
