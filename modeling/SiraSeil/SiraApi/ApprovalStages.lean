-- SUMMARY: An approved intent was approved for each required role by an actor who held it, in the frozen order and by pairwise distinct actors, in every run in which the keys of approval events tell their calls apart.
import SiraSeil.SiraApi.MutationReplays
import SiraSeil.SiraApi.PurchaseInvariants

/-!
# The stages of an approval

An approve call appends a role to those that approved, and records an event under a key made of
the request, the role and the actor. An event is recorded once for a key, and the parts of the
key are joined by a colon that roles and actors may contain. Where the key of a call belongs to
another event, the stage is passed and no event of it is recorded.
-/

namespace SiraApi

open Domain Persistence PurchaseDb PurchaseCore

/-- An event of an approval request that an approve call recorded: its approver held the role,
    and the time of neither the request nor the quote was over. -/
structure Signs (calls : List PurchaseTransaction) (core : PurchaseCore) (a : ApprovalRequest)
    (e : ApprovalEvent) : Prop where
  recorded : e ∈ core.approvalEvents
  called : ∃ t ∈ calls, ∃ approver body, t.call = .approve approver a.id body ∧
    t.organizationId = a.organizationId ∧ e = approveEvent t a.id body ∧
    body.actorRole ∈ approver.roles ∧ body.intentHash = a.intentHash ∧
    ∀ i ∈ core.intents, i.id = a.purchaseIntentId → approvalExpiryProblem a i t.given = none

/-- Each role that approved has an event, and no two of them have one actor. -/
def Signed (calls : List PurchaseTransaction) (core : PurchaseCore) (a : ApprovalRequest) : Prop :=
  ∃ signers : List ApprovalEvent, signers.map (·.actorRole) = a.approvedRoles ∧
    (signers.map (·.actorId)).Nodup ∧ ∀ e ∈ signers, Signs calls core a e

/-- The key of an approve call belongs to events of its request, its role and its actor. -/
def KeyIsOwn (t : PurchaseTransaction) (db : PurchaseDb) : Prop :=
  ∀ approver approvalId body, t.call = .approve approver approvalId body →
    ∀ e ∈ db.approvalEvents, e.organizationId = t.organizationId →
      e.eventKey = (approveEvent t approvalId body).eventKey →
        e.approvalRequestId = approvalId ∧ e.actorRole = body.actorRole ∧ e.actorId = t.actorId

/-- The keys of approve events start with their action. -/
def KeysByAction (events : List ApprovalEvent) : Prop :=
  ∀ e ∈ events, e.action ≠ .approve → ∀ rest, e.eventKey ≠ "approve:" ++ rest

section Events

variable {s : WorkflowService} {t : PurchaseTransaction} {organizationId : String}
  {core core' : PurchaseCore} {event : ApprovalEvent} {events : List ApprovalEvent}

theorem subset_recorded : events ⊆ recorded organizationId event events := by
  unfold recorded
  split
  · exact List.Subset.refl _
  · exact List.subset_append_left _ _

theorem mem_recorded {e : ApprovalEvent} (h : e ∈ recorded organizationId event events) :
    e ∈ events ∨ e = event := by
  unfold recorded at h
  split at h
  · exact .inl h
  · exact (List.mem_append.mp h).imp_right List.mem_singleton.mp

theorem mem_recorded_self
    (h : ∀ e ∈ events, e.organizationId = organizationId → e.eventKey ≠ event.eventKey) :
    event ∈ recorded organizationId event events := by
  unfold recorded
  rw [if_neg, List.mem_append]
  · exact .inr List.mem_cons_self
  · rw [List.any_eq_true]
    rintro ⟨e, he, hsame⟩
    obtain ⟨htenant, hkey⟩ := of_decide_eq_true hsame
    exact h e he htenant hkey

theorem subset_approvalEvents (hstep : PurchaseStep s t core core') :
    core.approvalEvents ⊆ core'.approvalEvents := by
  cases hstep with
  | accepts _ _ _ _ hretires =>
    rw [hretires.frame.2.2.2.2]
    exact List.Subset.refl _
  | selects _ _ _ _ hretires =>
    rw [hretires.frame.2.2.2.2]
    exact List.Subset.refl _
  | stages => exact subset_recorded
  | rejects => exact subset_recorded
  | revokes => exact subset_recorded
  | stays => exact List.Subset.refl _
  | discovers => exact List.Subset.refl _
  | locks => exact List.Subset.refl _
  | requests => exact List.Subset.refl _
  | expires => exact List.Subset.refl _
  | hands => exact List.Subset.refl _
  | opens => exact List.Subset.refl _

theorem KeysByAction.recorded (h : KeysByAction events)
    (hevent : event.action ≠ .approve → ∀ rest, event.eventKey ≠ "approve:" ++ rest) :
    KeysByAction (recorded organizationId event events) := by
  intro e he
  rcases mem_recorded he with he | rfl
  · exact h e he
  · exact hevent

theorem KeysByAction.step (h : KeysByAction core.approvalEvents)
    (hstep : PurchaseStep s t core core') : KeysByAction core'.approvalEvents := by
  cases hstep with
  | accepts _ _ _ _ hretires =>
    rw [hretires.frame.2.2.2.2]
    exact h
  | selects _ _ _ _ hretires =>
    rw [hretires.frame.2.2.2.2]
    exact h
  | stages => exact h.recorded (fun hother => absurd rfl hother)
  | rejects =>
    refine h.recorded (fun _ rest => ?_)
    unfold rejectEvent approvalEvent
    dsimp only
    rw [String.append_assoc, String.append_assoc, String.append_assoc, String.append_assoc]
    exact append_ne_append (by decide) (by decide) _ _
  | revokes =>
    refine h.recorded (fun _ rest => ?_)
    unfold revokeEvent approvalEvent
    dsimp only
    rw [String.append_assoc, String.append_assoc]
    exact append_ne_append (by decide) (by decide) _ _
  | stays => exact h
  | discovers => exact h
  | locks => exact h
  | requests => exact h
  | expires => exact h
  | hands => exact h
  | opens => exact h

end Events

/-! ## Signers -/

section Signers

variable {s : WorkflowService} {t : PurchaseTransaction} {organizationId : String}
  {core core' : PurchaseCore} {calls : List PurchaseTransaction}

variable {a a' : ApprovalRequest}

/-- Whether the time of an approval is over does not depend on what later rows may differ in. -/
theorem approvalExpiryProblem_later {i i' : PurchaseIntent} (happroval : LaterApproval a a')
    (hintent : LaterIntent i i') (given : PurchaseGiven) :
    approvalExpiryProblem a' i' given = approvalExpiryProblem a i given := by
  unfold approvalExpiryProblem
  rw [happroval, hintent]

theorem inTime_later {i : PurchaseIntent} {given : PurchaseGiven} (hids : KeyedIds core')
    (hkeeps : KeepsTerms core core') (hi : i ∈ core.intents) (hof : i.id = a.purchaseIntentId)
    (hlater : LaterApproval a a') (htime : approvalExpiryProblem a i given = none) :
    ∀ i' ∈ core'.intents, i'.id = a'.purchaseIntentId → approvalExpiryProblem a' i' given = none := by
  intro i' hi' hid
  obtain ⟨k, hk, hik⟩ := hkeeps.intents i hi
  have hkid : k.id = i.id := by
    rw [hik]
  have haof : a'.purchaseIntentId = a.purchaseIntentId := by
    rw [hlater]
  obtain rfl : i' = k := hids.intents.eq hi' hk (by rw [hid, haof, hkid, hof])
  rw [approvalExpiryProblem_later hlater hik]
  exact htime

theorem Signs.later {e : ApprovalEvent} (h : Signs calls core a e) (hconsistent : Consistent core)
    (hstep : PurchaseStep s t core core') (ha : a ∈ core.approvals) (hlater : LaterApproval a a') :
    Signs (calls ++ [t]) core' a' e := by
  obtain ⟨call, hcall, approver, body, hof, htenant, hevent, hheld, hhash, htime⟩ := h.called
  obtain ⟨i, hi, hbinds⟩ := hconsistent.bound a ha
  have hintime := inTime_later (hconsistent.step hstep).ids (hconsistent.keepsTerms hstep) hi
    hbinds.of hlater (htime i hi hbinds.of)
  refine ⟨subset_approvalEvents hstep h.recorded, call, List.mem_append_left _ hcall, approver,
    body, ?_⟩
  unfold LaterApproval at hlater
  rw [hlater]
  rw [hlater] at hintime
  exact ⟨hof, htenant, hevent, hheld, hhash, hintime⟩

theorem Signed.later (h : Signed calls core a) (hconsistent : Consistent core)
    (hstep : PurchaseStep s t core core') (ha : a ∈ core.approvals) (hlater : LaterApproval a a')
    (hroles : a'.approvedRoles = a.approvedRoles) : Signed (calls ++ [t]) core' a' := by
  obtain ⟨signers, hmap, hnodup, hsigns⟩ := h
  exact ⟨signers, hmap.trans hroles.symm, hnodup, fun e he =>
    (hsigns e he).later hconsistent hstep ha hlater⟩

theorem Signed.stage {approval : ApprovalRequest} {intent : PurchaseIntent} {approver : Approver}
    {body : ApprovalBody} (h : Signed calls core approval) (hconsistent : Consistent core)
    (hkeys : KeysByAction core.approvalEvents)
    (hcall : t.call = .approve approver approval.id body)
    (hof : BoundApproval core t.organizationId approval intent)
    (hown : ∀ e ∈ core.approvalEvents, e.organizationId = t.organizationId →
      e.eventKey = (approveEvent t approval.id body).eventKey →
        e.approvalRequestId = approval.id ∧ e.actorRole = body.actorRole ∧ e.actorId = t.actorId)
    (hheld : body.actorRole ∈ approver.roles)
    (hnext : approval.requiredRoles[approval.approvedRoles.length]? = some body.actorRole)
    (hhash : body.intentHash = approval.intentHash)
    (htime : approvalExpiryProblem approval intent t.given = none)
    (hseparate : ∀ e ∈ core.approvalEvents, e.organizationId = t.organizationId →
      e.approvalRequestId = approval.id → e.action = .approve → e.actorId ≠ t.actorId)
    (hstep : PurchaseStep s t core core')
    (hevents : core'.approvalEvents =
      recorded t.organizationId (approveEvent t approval.id body) core.approvalEvents) :
    Signed (calls ++ [t]) core' (staged approval body.actorRole) := by
  obtain ⟨signers, hmap, hnodup, hsigns⟩ := h
  obtain ⟨hnew, -⟩ := (hconsistent.stages approval hof.mem).withRole hnext
  have hrow := staged_eq hnew
  have hlater : LaterApproval approval (staged approval body.actorRole) := by
    rw [hrow]
    rfl
  have hintime := inTime_later (hconsistent.step hstep).ids (hconsistent.keepsTerms hstep)
    hof.intentMem hof.of hlater htime
  -- An event under the key of this call would be an approval by the same actor.
  have hrecorded : approveEvent t approval.id body ∈ core'.approvalEvents := by
    rw [hevents]
    refine mem_recorded_self (fun e he htenant hkey => ?_)
    obtain ⟨happroval, -, hactor⟩ := hown e he htenant hkey
    refine hseparate e he htenant happroval ?_ hactor
    by_contra hother
    refine hkeys e he hother (approval.id ++ ":" ++ body.actorRole ++ ":" ++ t.actorId) ?_
    rw [hkey]
    unfold approveEvent approvalEvent
    dsimp only
    simp only [String.append_assoc]
  refine ⟨signers ++ [approveEvent t approval.id body], ?roles, ?actors, ?signs⟩
  case roles =>
    rw [List.map_append, hmap, hrow]
    rfl
  case actors =>
    rw [List.map_append, List.nodup_append]
    refine ⟨hnodup, List.nodup_singleton _, ?_⟩
    intro actor hactor other hother hsame
    obtain ⟨e, he, rfl⟩ := List.mem_map.mp hactor
    obtain ⟨call, -, approver', body', -, htenant, hevent, -⟩ := (hsigns e he).called
    rw [List.map_singleton, List.mem_singleton] at hother
    refine hseparate e (hsigns e he).recorded ?_ ?_ ?_ (hsame.trans hother)
    · rw [hevent]
      exact htenant.trans hof.tenant
    · rw [hevent]
      rfl
    · rw [hevent]
      rfl
  case signs =>
    intro e he
    rcases List.mem_append.mp he with he | he
    · exact (hsigns e he).later hconsistent hstep hof.mem hlater
    · rw [List.mem_singleton.mp he]
      refine ⟨hrecorded, t, List.mem_append_right _ List.mem_cons_self, approver, body, ?_⟩
      rw [hrow] at hintime ⊢
      exact ⟨hcall, hof.tenant.symm, rfl, hheld, hhash, hintime⟩

/-- Every approval request stays signed for the roles that approved it, if the key of an approve
    call is its own. -/
theorem signed_step (hconsistent : Consistent core) (hkeys : KeysByAction core.approvalEvents)
    (hsigned : ∀ a ∈ core.approvals, Signed calls core a)
    (hown : ∀ approver approvalId body, t.call = .approve approver approvalId body →
      ∀ e ∈ core.approvalEvents, e.organizationId = t.organizationId →
        e.eventKey = (approveEvent t approvalId body).eventKey →
          e.approvalRequestId = approvalId ∧ e.actorRole = body.actorRole ∧ e.actorId = t.actorId)
    (hstep : PurchaseStep s t core core') :
    ∀ a ∈ core'.approvals, Signed (calls ++ [t]) core' a := by
  have hkept : ∀ a ∈ core.approvals, Signed (calls ++ [t]) core' a := fun a ha =>
    (hsigned a ha).later hconsistent hstep ha (.refl a) rfl
  have hended : ∀ a ∈ core.approvals, ∀ status, Signed (calls ++ [t]) core' { a with
      status := status } := fun a ha status =>
    (hsigned a ha).later hconsistent hstep ha rfl rfl
  have hsuperseded : ∀ a, (∃ r ∈ core.approvals, a = r ∨ a = { r with status := .superseded }) →
      Signed (calls ++ [t]) core' a := by
    rintro a ⟨r, hr, rfl | rfl⟩
    · exact hkept a hr
    · exact hended r hr .superseded
  intro a ha
  have hone := hstep
  cases hstep with
  | stays => exact hkept a ha
  | discovers => exact hkept a ha
  | accepts _ _ _ _ hretires => exact hsuperseded a (hretires.mem_approvals a ha)
  | selects _ _ _ _ hretires => exact hsuperseded a (hretires.mem_approvals a ha)
  | locks => exact hkept a ha
  | requests _ _ _ _ _ _ _ _ hstart =>
    rcases List.mem_append.mp ha with ha | ha
    · exact hkept a ha
    · rw [List.mem_singleton.mp ha]
      exact ⟨[], hstart.symm, List.nodup_nil, nofun⟩
  | stages hcall hof hlatest hopen hheld hnext hhash htime hseparate =>
    rcases Table.mem_update.mp ha with ⟨row, -, -, rfl⟩ | ⟨ha, -⟩
    · obtain ⟨hnew, -⟩ := (hconsistent.stages _ hof.mem).withRole hnext
      exact (hsigned _ hof.mem).stage hconsistent hkeys hcall hof (hown _ _ _ hcall) hheld hnext
        hhash.1 htime (hseparate hnew) hone rfl
    · exact hkept a ha
  | rejects _ hof =>
    rcases Table.mem_update.mp ha with ⟨row, hrow, -, rfl⟩ | ⟨ha, -⟩
    · exact hended row hrow _
    · exact hkept a ha
  | revokes _ hof =>
    rcases Table.mem_update.mp ha with ⟨row, hrow, -, rfl⟩ | ⟨ha, -⟩
    · exact hended row hrow _
    · exact hkept a ha
  | expires hof =>
    rcases Table.mem_update.mp ha with ⟨row, hrow, -, rfl⟩ | ⟨ha, -⟩
    · exact hended row hrow _
    · exact hkept a ha
  | hands => exact hkept a ha
  | opens => exact hkept a ha

end Signers

/-! ## Runs -/

section Runs

variable {s : WorkflowService} {db : PurchaseDb}

/-- What runs keep beside the invariants: keys of events by action, and signers of approvals. -/
structure SignedRun (calls : List PurchaseTransaction) (core : PurchaseCore) : Prop where
  consistent : Consistent core
  keys : KeysByAction core.approvalEvents
  signed : ∀ a ∈ core.approvals, Signed calls core a

theorem Signs.mono {calls : List PurchaseTransaction} {core : PurchaseCore} {a : ApprovalRequest}
    {e : ApprovalEvent} (h : Signs calls core a e) (t : PurchaseTransaction) :
    Signs (calls ++ [t]) core a e := by
  obtain ⟨call, hcall, hrest⟩ := h.called
  exact ⟨h.recorded, call, List.mem_append_left _ hcall, hrest⟩

theorem signedRun_purchasesAfter (hstart : Unrequested db.core) {run : List PurchaseTransaction}
    (halong : Transactions.Along (transact s) KeyIsOwn db run) :
    SignedRun run (purchasesAfter s db run).core := by
  refine Transactions.run_history (I := fun calls (db : PurchaseDb) => SignedRun calls db.core)
    (fun calls t before answer after h hown hdone => ?commit) (fun calls t before h => ?raise)
    ⟨hstart.consistent, ?keys, ?signed⟩ halong
  case commit =>
    have hstep := transact_step h.consistent.ids hdone
    exact ⟨h.consistent.step hstep, h.keys.step hstep,
      signed_step h.consistent h.keys h.signed hown hstep⟩
  case raise =>
    refine ⟨h.consistent, h.keys, fun a ha => ?_⟩
    obtain ⟨signers, hmap, hnodup, hsigns⟩ := h.signed a ha
    exact ⟨signers, hmap, hnodup, fun e he => (hsigns e he).mono t⟩
  case keys =>
    rw [KeysByAction, hstart.approvalEvents]
    nofun
  case signed =>
    rw [hstart.approvals]
    nofun

end Runs

/-- An approved intent has an approval request with its hash, to whose required roles, in their
    order, pairwise distinct actors who held them have signed. -/
structure FullyApproved (calls : List PurchaseTransaction) (core : PurchaseCore)
    (i : PurchaseIntent) (a : ApprovalRequest) : Prop where
  binds : Binds a i
  approved : a.status = .approved
  complete : a.approvedRoles = a.requiredRoles
  signers : ∃ signers : List ApprovalEvent, signers.map (·.actorRole) = a.requiredRoles ∧
    (signers.map (·.actorId)).Nodup ∧ ∀ e ∈ signers, Signs calls core a e ∧
      e.action = .approve ∧ e.intentHash = i.intentHash

/-- In every run in which the keys of approve calls are their own, an approved intent is fully
    approved, and an intent always has the status of its approval request. -/
theorem approvals_complete_and_separated (s : WorkflowService) {db : PurchaseDb}
    (hstart : Unrequested db.core) {run : List PurchaseTransaction}
    (halong : Transactions.Along (transact s) KeyIsOwn db run) :
    (∀ i ∈ (purchasesAfter s db run).intents, i.approvalStatus = .approved →
      ∃ a ∈ (purchasesAfter s db run).approvals,
        FullyApproved run (purchasesAfter s db run).core i a) ∧
    ∀ a ∈ (purchasesAfter s db run).approvals, ∀ i ∈ (purchasesAfter s db run).intents,
      i.id = a.purchaseIntentId → i.approvalStatus = a.status := by
  have hrun := signedRun_purchasesAfter hstart halong
  refine ⟨fun i hi happroved => ?_, fun a ha i hi hof => ?_⟩
  · rcases hrun.consistent.requested i hi with hnone | hsuperseded | ⟨a, ha, hbinds⟩
    · rw [happroved] at hnone
      cases hnone
    · rw [happroved] at hsuperseded
      cases hsuperseded
    · have hstatus : a.status = .approved := hbinds.status.symm.trans happroved
      have hcomplete := (hrun.consistent.stages a ha).complete hstatus
      obtain ⟨signers, hmap, hnodup, hsigns⟩ := hrun.signed a ha
      refine ⟨a, ha, hbinds, hstatus, hcomplete, signers, hmap.trans hcomplete, hnodup, ?_⟩
      intro e he
      obtain ⟨call, -, approver, body, -, -, hevent, -, hhash, -⟩ := (hsigns e he).called
      refine ⟨hsigns e he, ?_, ?_⟩
      · rw [hevent]
        rfl
      · rw [hevent]
        exact hhash.trans hbinds.hash.symm
  · exact (hrun.consistent.binds ha hi hof).status

theorem keyIsOwn_of_new {t : PurchaseTransaction} {db : PurchaseDb} {approver : Approver}
    {approvalId : String} {body : ApprovalBody} (hcall : t.call = .approve approver approvalId body)
    (h : db.approvalEvents.all (fun e =>
      e.eventKey ≠ (approveEvent t approvalId body).eventKey) = true) : KeyIsOwn t db := by
  intro _ _ _ hcall' e he _ hkey
  rw [hcall] at hcall'
  cases hcall'
  exact absurd hkey (of_decide_eq_true (List.all_eq_true.mp h e he))

namespace PurchaseSample

/-- Two actors approve, each for the role of their own. -/
def approvals : List PurchaseTransaction :=
  [request, approveAs "alice" "k2" "ops" 1, approveAs "bob" "k3" "legal" 2]

/-- Actor `eu:alice` approves for `ops`, and actor `alice` for `ops:eu`: both under one key. -/
def collidingApprovals : List PurchaseTransaction :=
  [request, approveAs "eu:alice" "k2" "ops" 1, approveAs "alice" "k3" "ops:eu" 2]

end PurchaseSample

open PurchaseSample in
theorem approvals_complete_and_separated_sample :
    (∀ i ∈ (purchasesAfter service (locked ["ops", "legal"]) approvals).intents,
      i.approvalStatus = .approved →
        ∃ a ∈ (purchasesAfter service (locked ["ops", "legal"]) approvals).approvals,
          FullyApproved approvals
            (purchasesAfter service (locked ["ops", "legal"]) approvals).core i a) ∧
    ∀ a ∈ (purchasesAfter service (locked ["ops", "legal"]) approvals).approvals,
      ∀ i ∈ (purchasesAfter service (locked ["ops", "legal"]) approvals).intents,
        i.id = a.purchaseIntentId → i.approvalStatus = a.status :=
  approvals_complete_and_separated service (unrequested_locked ["ops", "legal"])
    ⟨nofun, keyIsOwn_of_new rfl (by decide +kernel), keyIsOwn_of_new rfl (by decide +kernel), trivial⟩

/-- After the colliding approvals the intent is approved, and no event has the role `ops:eu`. -/
theorem shared_key_leaves_role_unsigned :
    Unrequested (PurchaseSample.locked ["ops", "ops:eu"]).core ∧
    ∃ i ∈ (purchasesAfter PurchaseSample.service (PurchaseSample.locked ["ops", "ops:eu"])
      PurchaseSample.collidingApprovals).intents, i.approvalStatus = .approved ∧
        ¬ ∃ a ∈ (purchasesAfter PurchaseSample.service (PurchaseSample.locked ["ops", "ops:eu"])
          PurchaseSample.collidingApprovals).approvals,
          FullyApproved PurchaseSample.collidingApprovals
            (purchasesAfter PurchaseSample.service (PurchaseSample.locked ["ops", "ops:eu"])
              PurchaseSample.collidingApprovals).core i a := by
  refine ⟨PurchaseSample.unrequested_locked _, ?_⟩
  generalize hfinal : purchasesAfter PurchaseSample.service
    (PurchaseSample.locked ["ops", "ops:eu"]) PurchaseSample.collidingApprovals = final
  have hstatus : final.intents.map (·.approvalStatus) = [.approved] := by
    rw [← hfinal]
    decide +kernel
  have hroles : final.approvals.all (fun a => a.requiredRoles = ["ops", "ops:eu"]) = true := by
    rw [← hfinal]
    decide +kernel
  have hevents : final.approvalEvents.all (fun e => e.actorRole = "ops") = true := by
    rw [← hfinal]
    decide +kernel
  obtain ⟨i, hi, happroved⟩ : ∃ i ∈ final.intents, i.approvalStatus = .approved :=
    List.mem_map.mp (hstatus ▸ List.mem_singleton_self _)
  refine ⟨i, hi, happroved, ?_⟩
  rintro ⟨a, ha, hfully⟩
  obtain ⟨signers, hmap, -, hsigns⟩ := hfully.signers
  rw [of_decide_eq_true (List.all_eq_true.mp hroles a ha)] at hmap
  obtain ⟨e, he, hrole⟩ := List.mem_map.mp
    (hmap ▸ List.mem_cons_of_mem "ops" (List.mem_singleton_self "ops:eu"))
  have hops := of_decide_eq_true (List.all_eq_true.mp hevents e (hsigns e he).1.recorded)
  rw [hops] at hrole
  exact absurd hrole (by decide)

end SiraApi
