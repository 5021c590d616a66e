-- SUMMARY: The versions of an exchange linearize its commands: the coordinator replays the log of its transitions, and both projections of a version show one state.
import SiraSeil.Library.Interleaving
import SiraSeil.Persistence.BilateralRepository

/-!
# The log of an exchange

A client applies its command in a transaction of the buyer's tenant and publishes
the projection for the seller in a second one. The transitions of a case are a log
of commands: the coordinator state is what they replay to, and a projection of
either party shows the state after the commands up to its version.
-/

namespace Persistence

open Domain Interleaving Raising

/-! ## Replaying commands -/

/-- The state after a command, without the projections. -/
def applied (state : CoordinatorState) (command : PartyCommandData) :
    Exchanged CoordinatorState := do
  let target ← state.state.target command.commandType
  return state.advance target command

def replay (caseId : String) (commands : List PartyCommandData) : Exchanged CoordinatorState :=
  commands.foldlM applied { caseId := caseId }

/-- The payload of the last command of some types. -/
def lastPayload (types : List CommandType) (commands : List PartyCommandData) : Option Fields :=
  (commands.filter (fun c => c.commandType ∈ types)).getLast?.map (·.payload)

section Replay

variable {caseId : String} {commands : List PartyCommandData} {command : PartyCommandData}
  {state next : CoordinatorState}

theorem applied_eq_ok (h : applied state command = .ok next) :
    state.state.target command.commandType = .ok next.state ∧
      next = state.advance next.state command := by
  unfold applied at h
  obtain ⟨target, htarget, h⟩ := bind_eq_ok.mp h
  obtain rfl := pure_eq_ok.mp h
  rw [CoordinatorState.advance_state]
  exact ⟨htarget, rfl⟩

theorem applied_of_compiles {rt : Runtime} {command : PartyCommand rt}
    {compiled : CompiledTransition} (h : Compiles rt state command compiled) :
    applied state command.toPartyCommandData = .ok compiled.nextState := by
  unfold applied
  rw [h.target, ok_bind, ← h.next]
  rfl

theorem replay_concat :
    replay caseId (commands ++ [command]) = .ok next ↔
      ∃ state, replay caseId commands = .ok state ∧ applied state command = .ok next := by
  unfold replay
  rw [List.foldlM_append, bind_eq_ok]
  simp only [List.foldlM_cons, List.foldlM_nil, bind_pure]

theorem replay_version (h : replay caseId commands = .ok state) :
    state.version = 1 + commands.length := by
  induction commands using List.reverseRecOn generalizing state with
  | nil =>
    cases h
    rfl
  | append_singleton commands command ih =>
    obtain ⟨before, hbefore, happlied⟩ := replay_concat.mp h
    rw [(applied_eq_ok happlied).2, CoordinatorState.advance_version, ih hbefore,
      List.length_append, List.length_singleton, Nat.add_assoc]

theorem replay_caseId (h : replay caseId commands = .ok state) : state.caseId = caseId := by
  induction commands using List.reverseRecOn generalizing state with
  | nil =>
    cases h
    rfl
  | append_singleton commands command ih =>
    obtain ⟨before, hbefore, happlied⟩ := replay_concat.mp h
    rw [(applied_eq_ok happlied).2, CoordinatorState.advance_caseId, ih hbefore]

theorem lastPayload_concat (types : List CommandType) :
    lastPayload types (commands ++ [command]) =
      if command.commandType ∈ types then some command.payload
      else lastPayload types commands := by
  unfold lastPayload
  split
  · next h => simp [List.filter_append, h]
  · next h => simp [List.filter_append, h]

/-- What the coordinator has released is what the last commands of their types brought. -/
theorem replay_released (h : replay caseId commands = .ok state) :
    state.requirement = lastPayload [.releaseRequirement] commands ∧
      state.evidence = lastPayload [.publishEvidence] commands ∧
      state.currentOffer = lastPayload [.proposeOffer, .counterOffer] commands := by
  induction commands using List.reverseRecOn generalizing state with
  | nil =>
    cases h
    exact ⟨rfl, rfl, rfl⟩
  | append_singleton commands command ih =>
    obtain ⟨before, hbefore, happlied⟩ := replay_concat.mp h
    obtain ⟨hrequirement, hevidence, hoffer⟩ := ih hbefore
    rw [(applied_eq_ok happlied).2]
    simp only [lastPayload_concat, ← hrequirement, ← hevidence, ← hoffer]
    unfold CoordinatorState.advance
    cases command.commandType <;> simp

end Replay

/-! ## The log of a case -/

/-- The commands applied to a case, in their order. -/
def Db.log (db : Db) (organizationId caseId : String) : List PartyCommandData :=
  (db.transitionsOf organizationId caseId).map (·.command)

/-- The row of a case agrees with its transitions. -/
structure Linearized (db : Db) (c : BilateralExchangeCase) : Prop where
  state : c.state = c.coordinatorState.state
  version : c.version = c.coordinatorState.version
  replays : replay c.id (db.log c.organizationId c.id) = .ok c.coordinatorState
  sequences : (db.transitionsOf c.organizationId c.id).map (·.sequence) =
    List.range' 1 (db.log c.organizationId c.id).length
  expected : (db.log c.organizationId c.id).map (·.expectedVersion) =
    List.range' 1 (db.log c.organizationId c.id).length
  ids : ((db.log c.organizationId c.id).map (·.id)).Nodup
  owned : ∀ command ∈ db.log c.organizationId c.id, command.party = command.commandType.owner

/-- A projection is that of the state after the commands up to one of the log. -/
def Shows (rt : Runtime) (caseId : String) (log : List PartyCommandData)
    (shown : PartyProjection) : Prop :=
  ∃ earlier command later state, log = earlier ++ command :: later ∧
    replay caseId (earlier ++ [command]) = .ok state ∧
    projection rt state shown.party command.id = .ok shown

/-- A projection shows a state of a stored case. -/
def ShownIn (rt : Runtime) (db : Db) (shown : PartyProjection) : Prop :=
  ∃ c ∈ db.cases, c.id = shown.caseId ∧ Shows rt c.id (db.log c.organizationId c.id) shown

structure Consistent (rt : Runtime) (db : Db) : Prop where
  keyed : Table.Keyed (·.id) db.cases
  linearized : ∀ c ∈ db.cases, Linearized db c
  placed : ∀ t ∈ db.transitions, ∃ c ∈ db.cases,
    c.id = t.caseId ∧ c.organizationId = t.organizationId
  shown : ∀ p ∈ db.projections, ShownIn rt db p.toPartyProjection

/-- Every case stays where it is, and its log only grows. -/
def Extends (db db' : Db) : Prop :=
  ∀ c ∈ db.cases, ∃ c' ∈ db'.cases, c'.id = c.id ∧ c'.organizationId = c.organizationId ∧
    c'.sellerOrganizationId = c.sellerOrganizationId ∧
    db.log c.organizationId c.id <+: db'.log c.organizationId c.id

section Log

variable {rt : Runtime} {db db' : Db} {organizationId caseId : String}

theorem Extends.refl (db : Db) : Extends db db :=
  fun c hc => ⟨c, hc, rfl, rfl, rfl, List.prefix_rfl⟩

theorem Extends.trans {db'' : Db} (h : Extends db db') (h' : Extends db' db'') :
    Extends db db'' := by
  intro c hc
  obtain ⟨c', hc', hid, horg, hseller, hlog⟩ := h c hc
  obtain ⟨c'', hc'', hid', horg', hseller', hlog'⟩ := h' c' hc'
  rw [hid, horg] at hlog'
  exact ⟨c'', hc'', hid'.trans hid, horg'.trans horg, hseller'.trans hseller, hlog.trans hlog'⟩

variable {shown : PartyProjection} {c : BilateralExchangeCase} {transition : BilateralTransition}
  {compiled : CompiledTransition} {commandOrganizationId stateHash : String}

theorem Shows.mono {log log' : List PartyCommandData} (h : Shows rt caseId log shown)
    (hlog : log <+: log') : Shows rt caseId log' shown := by
  obtain ⟨earlier, command, later, state, rfl, hreplay, hshown⟩ := h
  obtain ⟨rest, rfl⟩ := hlog
  exact ⟨earlier, command, later ++ rest, state, by simp, hreplay, hshown⟩

theorem ShownIn.mono (h : ShownIn rt db shown)
    (hextends : Extends db db') : ShownIn rt db' shown := by
  obtain ⟨c, hc, hid, hshows⟩ := h
  obtain ⟨c', hc', hid', horg, -, hlog⟩ := hextends c hc
  refine ⟨c', hc', hid'.trans hid, ?_⟩
  rw [hid', horg]
  exact hshows.mono hlog

theorem Shows.agree {log : List PartyCommandData} {p q : PartyProjection}
    (hp : Shows rt caseId log p) (hq : Shows rt caseId log q) (hversion : p.version = q.version) :
    ∃ state command, projection rt state p.party command = .ok p ∧
      projection rt state q.party command = .ok q := by
  obtain ⟨earlier, command, later, state, hlog, hreplay, hshown⟩ := hp
  obtain ⟨earlier', command', later', state', hlog', hreplay', hshown'⟩ := hq
  -- The version fixes how many commands came before, and so which ones.
  have hlength : earlier.length = earlier'.length := by
    have h := replay_version hreplay
    have h' := replay_version hreplay'
    rw [← (projection_eq_ok hshown).2.2.2.1] at h
    rw [← (projection_eq_ok hshown').2.2.2.1] at h'
    simp only [List.length_append, List.length_singleton] at h h'
    omega
  obtain ⟨rfl, htail⟩ := List.append_inj (hlog.symm.trans hlog') hlength
  obtain ⟨rfl, -⟩ := List.cons.inj htail
  obtain rfl := Except.ok.inj (hreplay.symm.trans hreplay')
  exact ⟨state, command.id, hshown, hshown'⟩

theorem Linearized.congr (h : Linearized db c)
    (htransitions : db'.transitionsOf c.organizationId c.id =
      db.transitionsOf c.organizationId c.id) : Linearized db' c := by
  have hlog : db'.log c.organizationId c.id = db.log c.organizationId c.id :=
    congrArg (List.map BilateralTransition.command) htransitions
  constructor
  · exact h.state
  · exact h.version
  · rw [hlog]
    exact h.replays
  · rw [hlog, htransitions]
    exact h.sequences
  · rw [hlog]
    exact h.expected
  · rw [hlog]
    exact h.ids
  · rw [hlog]
    exact h.owned

/-- The tables of cases, transitions and projections are the same. -/
structure SameCases (db db' : Db) : Prop where
  cases : db'.cases = db.cases
  transitions : db'.transitions = db.transitions
  projections : db'.projections = db.projections

theorem SameCases.trans {db'' : Db} (h : SameCases db db') (h' : SameCases db' db'') :
    SameCases db db'' :=
  ⟨h'.cases.trans h.cases, h'.transitions.trans h.transitions, h'.projections.trans h.projections⟩

theorem SameCases.log (h : SameCases db db') (organizationId caseId : String) :
    db'.log organizationId caseId = db.log organizationId caseId := by
  unfold Db.log Db.transitionsOf
  rw [h.transitions]

theorem SameCases.extends (h : SameCases db db') : Extends db db' := by
  intro c hc
  refine ⟨c, h.cases ▸ hc, rfl, rfl, rfl, ?_⟩
  simp only [h.log, List.prefix_rfl]

theorem Consistent.congr (h : Consistent rt db) (hsame : SameCases db db') :
    Consistent rt db' := by
  constructor
  · rw [hsame.cases]
    exact h.keyed
  · intro c hc
    refine (h.linearized c (hsame.cases ▸ hc)).congr ?_
    unfold Db.transitionsOf
    rw [hsame.transitions]
  · rw [hsame.cases, hsame.transitions]
    exact h.placed
  · intro p hp
    exact (h.shown p (hsame.projections ▸ hp)).mono hsame.extends

/-! ## What each operation keeps -/

theorem Consistent.transitionsOf_eq_nil (h : Consistent rt db)
    (hnew : ∀ c ∈ db.cases, c.id ≠ caseId) : db.transitionsOf organizationId caseId = [] := by
  refine List.filter_eq_nil_iff.mpr (fun t ht hkeys => ?_)
  obtain ⟨c, hc, hid, -⟩ := h.placed t ht
  have hkeys : t.organizationId = organizationId ∧ t.caseId = caseId := by simpa using hkeys
  exact hnew c hc (hid.trans hkeys.2)

theorem Consistent.create {sellerOrganizationId : String} {record : BilateralExchangeCase}
    (h : Consistent rt db)
    (hcreate : createCase rt organizationId caseId sellerOrganizationId db = .ok (record, db')) :
    Consistent rt db' ∧ Extends db db' ∧ record ∈ db'.cases := by
  rcases createCase_eq_ok hcreate with ⟨hmem, -, -, rfl⟩ | ⟨hfresh, hnew, rfl⟩
  · exact ⟨h, Extends.refl db', hmem⟩
  · have hextends : Extends db { db with cases := db.cases ++ [record] } :=
      fun c hc => ⟨c, List.mem_append_left _ hc, rfl, rfl, rfl, List.prefix_rfl⟩
    refine ⟨⟨?_, ?_, ?_, ?_⟩, hextends, List.mem_append_right _ (List.mem_singleton_self record)⟩
    · exact h.keyed.append (fun c hc => hfresh.id ▸ hnew c hc)
    · intro c hc
      rcases List.mem_append.mp hc with hc | hc
      · exact (h.linearized c hc).congr rfl
      · obtain rfl := List.mem_singleton.mp hc
        have hnil : db.transitionsOf c.organizationId c.id = [] :=
          h.transitionsOf_eq_nil (hfresh.id ▸ hnew)
        have hlog : Db.log { db with cases := db.cases ++ [c] } c.organizationId c.id = [] :=
          congrArg (List.map BilateralTransition.command) hnil
        constructor
        · rw [hfresh.state, hfresh.coordinator]
        · rw [hfresh.version, hfresh.coordinator]
        · rw [hlog, hfresh.coordinator, hfresh.id]
          rfl
        · rw [hlog]
          exact congrArg (List.map BilateralTransition.sequence) hnil
        · rw [hlog]
          rfl
        · rw [hlog]
          exact List.nodup_nil
        · rw [hlog]
          exact fun command hcommand => nomatch hcommand
    · intro t ht
      obtain ⟨c, hc, hkeys⟩ := h.placed t ht
      exact ⟨c, List.mem_append_left _ hc, hkeys⟩
    · exact fun p hp => (h.shown p hp).mono hextends

theorem transitionsOf_append {cases : List BilateralExchangeCase}
    (hcase : transition.organizationId = organizationId ∧ transition.caseId = caseId) :
    Db.transitionsOf { db with transitions := db.transitions ++ [transition], cases := cases }
      organizationId caseId = db.transitionsOf organizationId caseId ++ [transition] := by
  unfold Db.transitionsOf
  rw [List.filter_append, List.filter_cons_of_pos (by simpa using hcase), List.filter_nil]

theorem transitionsOf_append_of_ne {cases : List BilateralExchangeCase}
    (hcase : transition.caseId ≠ caseId) :
    Db.transitionsOf { db with transitions := db.transitions ++ [transition], cases := cases }
      organizationId caseId = db.transitionsOf organizationId caseId := by
  unfold Db.transitionsOf
  rw [List.filter_append, List.filter_cons_of_neg (by simp [hcase]), List.filter_nil,
    List.append_nil]

theorem foldl_max_range' (n : Nat) : (List.range' 1 n).foldl max 0 = n := by
  induction n with
  | zero => rfl
  | succ n ih =>
    rw [List.range'_concat, List.foldl_append, ih]
    simp only [List.foldl_cons, List.foldl_nil]
    omega

theorem Linearized.concat {command : PartyCommand rt} (h : Linearized db c)
    (happlied : Applied rt c.organizationId c command compiled transition stateHash db db') :
    Linearized db' (c.advance compiled.nextState stateHash command.id) := by
  have htransitions : db'.transitionsOf c.organizationId c.id =
      db.transitionsOf c.organizationId c.id ++ [transition] := by
    rw [happlied.leaves]
    exact transitionsOf_append ⟨happlied.organization, happlied.caseId⟩
  have hlog : db'.log c.organizationId c.id =
      db.log c.organizationId c.id ++ [command.toPartyCommandData] := by
    unfold Db.log
    rw [htransitions, List.map_append, List.map_singleton, happlied.records]
  have hlength : (db.log c.organizationId c.id).length + 1 =
      (db'.log c.organizationId c.id).length := by
    rw [hlog, List.length_append, List.length_singleton]
  constructor
  · rfl
  · rfl
  · show replay c.id (db'.log c.organizationId c.id) = .ok compiled.nextState
    rw [hlog, replay_concat]
    exact ⟨_, h.replays, applied_of_compiles happlied.compiles⟩
  · show (db'.transitionsOf c.organizationId c.id).map (·.sequence) =
      List.range' 1 (db'.log c.organizationId c.id).length
    rw [htransitions, List.map_append, h.sequences, ← hlength, List.range'_concat,
      List.map_singleton, happlied.sequence]
    unfold Db.nextSequence
    rw [h.sequences, foldl_max_range', Nat.one_mul, Nat.add_comm]
  · show (db'.log c.organizationId c.id).map (·.expectedVersion) =
      List.range' 1 (db'.log c.organizationId c.id).length
    rw [← hlength, hlog, List.map_append, h.expected, List.range'_concat, List.map_singleton,
      happlied.compiles.version, replay_version h.replays, Nat.one_mul]
  · show ((db'.log c.organizationId c.id).map (·.id)).Nodup
    rw [hlog, List.map_append, List.map_singleton, List.nodup_append]
    refine ⟨h.ids, List.nodup_singleton _, ?_⟩
    intro x hx y hy
    rw [List.mem_singleton.mp hy]
    rw [Db.log, List.map_map] at hx
    obtain ⟨t, ht, rfl⟩ := List.mem_map.mp hx
    exact happlied.fresh t ht
  · show ∀ x ∈ db'.log c.organizationId c.id, x.party = x.commandType.owner
    rw [hlog]
    intro x hx
    rcases List.mem_append.mp hx with hx | hx
    · exact h.owned x hx
    · rw [List.mem_singleton.mp hx]
      exact command.party_eq_owner

theorem Applied.extends {command : PartyCommand rt}
    (happlied : Applied rt organizationId c command compiled transition stateHash db db') :
    Extends db db' := by
  intro d hd
  have hprefix : db.transitionsOf d.organizationId d.id <+:
      db'.transitionsOf d.organizationId d.id := by
    rw [happlied.leaves]
    unfold Db.transitionsOf
    rw [List.filter_append]
    exact List.prefix_append _ _
  have hlog : db.log d.organizationId d.id <+: db'.log d.organizationId d.id := hprefix.map _
  rw [happlied.leaves] at hlog ⊢
  by_cases hid : d.id = c.id
  · exact ⟨d.advance compiled.nextState stateHash command.id,
      Table.mem_update.mpr (.inl ⟨d, hd, hid, rfl⟩), rfl, rfl, rfl, hlog⟩
  · exact ⟨d, Table.mem_update.mpr (.inr ⟨hd, hid⟩), rfl, rfl, rfl, hlog⟩

theorem Consistent.applied {command : PartyCommand rt} (h : Consistent rt db) (hc : c ∈ db.cases)
    (happlied : Applied rt c.organizationId c command compiled transition stateHash db db') :
    Consistent rt db' := by
  have hlinear : ∀ d ∈ db'.cases, Linearized db' d := by
    intro d hd
    rw [happlied.leaves] at hd
    rcases Table.mem_update.mp hd with ⟨a, ha, hid, rfl⟩ | ⟨hd, hid⟩
    · obtain rfl := h.keyed.eq ha hc hid
      exact (h.linearized a ha).concat happlied
    · refine (h.linearized d hd).congr ?_
      rw [happlied.leaves]
      exact transitionsOf_append_of_ne (fun heq => hid (heq.symm.trans happlied.caseId))
  have hplace : ∀ d ∈ db.cases, ∃ d' ∈ db'.cases, d'.id = d.id ∧
      d'.organizationId = d.organizationId := by
    intro d hd
    obtain ⟨d', hd', hid, horg, -⟩ := happlied.extends d hd
    exact ⟨d', hd', hid, horg⟩
  refine ⟨?_, hlinear, ?_, ?_⟩
  · rw [happlied.leaves]
    exact h.keyed.update (fun r => rfl)
  · intro t ht
    rw [happlied.leaves] at ht
    rcases List.mem_append.mp ht with ht | ht
    · obtain ⟨d, hd, hid, horg⟩ := h.placed t ht
      obtain ⟨d', hd', hid', horg'⟩ := hplace d hd
      exact ⟨d', hd', hid'.trans hid, horg'.trans horg⟩
    · obtain rfl := List.mem_singleton.mp ht
      obtain ⟨d', hd', hid', horg'⟩ := hplace c hc
      exact ⟨d', hd', hid'.trans happlied.caseId.symm, horg'.trans happlied.organization.symm⟩
  · intro p hp
    rw [happlied.leaves] at hp
    exact (h.shown p hp).mono happlied.extends

theorem Consistent.shownIn {command : PartyCommand rt} (h : Consistent rt db) (hc : c ∈ db.cases)
    (happlied : Applied rt c.organizationId c command compiled transition stateHash db db') :
    ShownIn rt db' compiled.buyerProjection ∧ ShownIn rt db' compiled.sellerProjection := by
  have hrow : c.advance compiled.nextState stateHash command.id ∈ db'.cases := by
    rw [happlied.leaves]
    exact Table.mem_update.mpr (.inl ⟨c, hc, rfl, rfl⟩)
  have hcase : c.id = compiled.nextState.caseId := by
    rw [happlied.compiles.next, CoordinatorState.advance_caseId,
      replay_caseId (h.linearized c hc).replays]
  have hlog : db'.log c.organizationId c.id =
      db.log c.organizationId c.id ++ [command.toPartyCommandData] := by
    unfold Db.log
    rw [happlied.leaves, transitionsOf_append ⟨happlied.organization, happlied.caseId⟩,
      List.map_append, List.map_singleton, happlied.records]
  have hreplay : replay c.id (db.log c.organizationId c.id ++ [command.toPartyCommandData]) =
      .ok compiled.nextState :=
    replay_concat.mpr ⟨_, (h.linearized c hc).replays, applied_of_compiles happlied.compiles⟩
  have hshown : ∀ party shown, projection rt compiled.nextState party command.id = .ok shown →
      ShownIn rt db' shown := by
    intro party shown hshown
    refine ⟨_, hrow, hcase.trans (projection_eq_ok hshown).1.symm, ?_⟩
    refine ⟨db.log c.organizationId c.id, command.toPartyCommandData, [], _, hlog, hreplay, ?_⟩
    rw [(projection_eq_ok hshown).2.1]
    exact hshown
  exact ⟨hshown _ _ happlied.compiles.buyer, hshown _ _ happlied.compiles.seller⟩

theorem Consistent.publish {record : BilateralPartyProjection} (h : Consistent rt db)
    (hshown : ShownIn rt db shown)
    (hpublish : publishProjection organizationId shown db = .ok (record, db')) :
    Consistent rt db' ∧ Extends db db' := by
  rcases publishProjection_eq_ok hpublish with ⟨rfl, -⟩ | ⟨rfl, rfl⟩
  · exact ⟨h, Extends.refl db'⟩
  · have hextends : Extends db { db with
        projections := db.projections ++ [{ shown with organizationId := organizationId }] } :=
      Extends.refl db
    refine ⟨⟨h.keyed, fun c hc => (h.linearized c hc).congr rfl, h.placed, ?_⟩, hextends⟩
    intro p hp
    rcases List.mem_append.mp hp with hp | hp
    · exact (h.shown p hp).mono hextends
    · obtain rfl := List.mem_singleton.mp hp
      exact hshown.mono hextends

theorem Consistent.apply {command : PartyCommand rt} (h : Consistent rt db) (hc : c ∈ db.cases)
    (happly : applyAndPublish rt c.organizationId c command commandOrganizationId db =
      .ok (compiled, db')) :
    Consistent rt db' ∧ Extends db db' ∧ ShownIn rt db' compiled.sellerProjection := by
  obtain ⟨transition, stateHash, between, record, happlied, hpublish⟩ :=
    applyAndPublish_eq_ok happly
  have hshown := h.shownIn hc happlied
  obtain ⟨hconsistent, hextends⟩ := (h.applied hc happlied).publish hshown.1 hpublish
  exact ⟨hconsistent, happlied.extends.trans hextends, hshown.2.mono hextends⟩

theorem Consistent.mem_cases {d : BilateralExchangeCase} {command : PartyCommand rt}
    (h : Consistent rt db) (hc : c ∈ db.cases)
    (happly : applyAndPublish rt c.organizationId c command commandOrganizationId db =
      .ok (compiled, db'))
    (hd : d ∈ db'.cases) :
    (d ∈ db.cases ∧ d.id ≠ c.id) ∨
      ∃ stateHash, d = c.advance compiled.nextState stateHash command.id := by
  obtain ⟨transition, stateHash, between, record, happlied, hpublish⟩ :=
    applyAndPublish_eq_ok happly
  have hcases : db'.cases = between.cases := by
    rcases publishProjection_eq_ok hpublish with ⟨rfl, -⟩ | ⟨rfl, -⟩
    · rfl
    · rfl
  rw [hcases, happlied.leaves] at hd
  rcases Table.mem_update.mp hd with ⟨a, ha, hid, rfl⟩ | ⟨hd, hid⟩
  · obtain rfl := h.keyed.eq ha hc hid
    exact .inr ⟨stateHash, rfl⟩
  · exact .inl ⟨hd, hid⟩

theorem Consistent.sellerProjection {command : PartyCommand rt} (h : Consistent rt db)
    (hc : c ∈ db.cases)
    (happly : applyAndPublish rt c.organizationId c command commandOrganizationId db =
      .ok (compiled, db')) :
    compiled.nextState.version = c.version + 1 ∧
      compiled.sellerProjection.caseId = c.id ∧ compiled.sellerProjection.party = .seller ∧
      compiled.sellerProjection.version = c.version + 1 := by
  obtain ⟨transition, stateHash, between, record, happlied, -⟩ := applyAndPublish_eq_ok happly
  have hnext : compiled.nextState.version = c.version + 1 := by
    rw [happlied.compiles.next, CoordinatorState.advance_version, (h.linearized c hc).version]
  obtain ⟨hcase, hparty, -, hversion, -⟩ := projection_eq_ok happlied.compiles.seller
  refine ⟨hnext, ?_, hparty, hversion.trans hnext⟩
  rw [hcase, happlied.compiles.next, CoordinatorState.advance_caseId]
  exact replay_caseId (h.linearized c hc).replays

theorem mem_projections_publishProjection {record p : BilateralPartyProjection}
    (h : publishProjection organizationId shown db = .ok (record, db')) (hp : p ∈ db.projections) :
    p ∈ db'.projections := by
  rcases publishProjection_eq_ok h with ⟨rfl, -⟩ | ⟨rfl, -⟩
  · exact hp
  · exact List.mem_append_left _ hp

theorem mem_projections_applyAndPublish {command : PartyCommand rt} {p : BilateralPartyProjection}
    (h : applyAndPublish rt organizationId c command commandOrganizationId db =
      .ok (compiled, db'))
    (hp : p ∈ db.projections) : p ∈ db'.projections := by
  obtain ⟨transition, stateHash, between, record, happlied, hpublish⟩ := applyAndPublish_eq_ok h
  apply mem_projections_publishProjection hpublish
  rw [happlied.leaves]
  exact hp

/-- A projection has at most the version of its case, and with that version it has the
    state of its case. -/
theorem Consistent.projection_state (h : Consistent rt db) (hc : c ∈ db.cases)
    (hshown : ShownIn rt db shown) (hcase : shown.caseId = c.id) :
    shown.version ≤ c.version ∧ (shown.version = c.version → shown.state = c.state) := by
  obtain ⟨d, hd, hid, earlier, command, later, state, hlog, hreplay, hprojection⟩ := hshown
  obtain rfl := h.keyed.eq hd hc (hid.trans hcase)
  obtain ⟨-, -, hstate, hversion, -⟩ := projection_eq_ok hprojection
  have hlinear := h.linearized d hd
  have hcount : shown.version = 2 + earlier.length := by
    rw [hversion, replay_version hreplay, List.length_append, List.length_singleton]
    omega
  have htotal : d.version = 2 + earlier.length + later.length := by
    rw [hlinear.version, replay_version hlinear.replays, hlog, List.length_append,
      List.length_cons]
    omega
  refine ⟨by omega, fun heq => ?_⟩
  -- No command came later, so the projection shows where the whole log leads.
  have hnil : later = [] := List.eq_nil_of_length_eq_zero (by omega)
  have hreplays := hlinear.replays
  rw [hlog, hnil, hreplay] at hreplays
  rw [hstate, hlinear.state, Except.ok.inj hreplays]

/-- A projection that shows a state of its case can be published, unless its hash is
    taken by another one. -/
theorem Consistent.exists_publishProjection (h : Consistent rt db) (hshown : ShownIn rt db shown)
    (hfresh : ∀ p ∈ db.projections, p.organizationId = organizationId →
      p.projectionHash = shown.projectionHash →
      p.caseId = shown.caseId ∧ p.party = shown.party ∧ p.version = shown.version) :
    ∃ result, publishProjection organizationId shown db = .ok result := by
  unfold publishProjection
  split
  · next existing hfind =>
    have hkeys : existing.organizationId = organizationId ∧ existing.caseId = shown.caseId ∧
        existing.party = shown.party ∧ existing.version = shown.version := by
      simpa using List.find?_some hfind
    obtain ⟨c, hc, hid, hshows⟩ := h.shown existing (List.mem_of_find?_eq_some hfind)
    obtain ⟨d, hd, hid', hshows'⟩ := hshown
    obtain rfl := h.keyed.eq hc hd (hid.trans (hkeys.2.1.trans hid'.symm))
    obtain ⟨state, commandId, hexisting, hshown⟩ := hshows.agree hshows' hkeys.2.2.2
    -- The two are the projection of one state for one party, so they have one hash.
    have hsame : existing.toPartyProjection = shown := by
      rw [hkeys.2.2.1] at hexisting
      exact Except.ok.inj (hexisting.symm.trans hshown)
    rw [if_neg (not_not.mpr (congrArg PartyProjection.projectionHash hsame))]
    exact ⟨_, rfl⟩
  · next hnone =>
    have hunique : unique (db.projections.any (fun p => p.organizationId = organizationId ∧
        p.projectionHash = shown.projectionHash)) "uq_bilateral_projection_hash" = .ok () := by
      rw [unique_eq_ok, List.any_eq_false]
      intro p hp htaken
      have htaken : p.organizationId = organizationId ∧
          p.projectionHash = shown.projectionHash := by simpa using htaken
      apply List.find?_eq_none.mp hnone p hp
      simpa [htaken.1] using hfresh p hp htaken.1 htaken.2
    rw [hunique, ok_bind]
    exact ⟨_, rfl⟩

end Log

/-! ## Clients -/

/-- A command for a case, and the tenants it concerns. -/
structure Submission (rt : Runtime) where
  organizationId : String
  caseId : String
  command : PartyCommand rt
  commandOrganizationId : String
  sellerOrganizationId : String

/-- What a client asks for. -/
inductive Request (rt : Runtime)
  | create (organizationId caseId sellerOrganizationId : String)
  | submit (submission : Submission rt)

/-- What a client has still to do. -/
inductive Client (rt : Runtime)
  | create (organizationId caseId sellerOrganizationId : String)
  | submit (submission : Submission rt)
  | publish (organizationId : String) (shown : PartyProjection)
  | returned
  | raised (error : ExchangeError)

/-- The transaction that applies a command. -/
def submitCommand (rt : Runtime) (s : Submission rt) (db : Db) :
    Exchanged (CompiledTransition × Db) := do
  let exchange ← getCase s.organizationId s.caseId db
  applyAndPublish rt s.organizationId exchange s.command s.commandOrganizationId db

def Client.next {rt : Runtime} (client : Client rt) (db : Db) : Client rt × Db :=
  match client with
  | .create organizationId caseId sellerOrganizationId =>
    commit db (fun _ => .returned) .raised (createCase rt organizationId caseId sellerOrganizationId db)
  | .submit s =>
    commit db (fun compiled => .publish s.sellerOrganizationId compiled.sellerProjection) .raised
      (submitCommand rt s db)
  | .publish organizationId shown =>
    commit db (fun _ => .returned) .raised (publishProjection organizationId shown db)
  | .returned => (.returned, db)
  | .raised error => (.raised error, db)

def clients (rt : Runtime) : System Db (Client rt) (Request rt) Unit where
  start request _ _ :=
    match request with
    | .create organizationId caseId sellerOrganizationId =>
      .create organizationId caseId sellerOrganizationId
    | .submit s => .submit s
  next client _ db := client.next db

/-- A projection that waits for its publication shows a state of its case. -/
def Client.Waits {rt : Runtime} (db : Db) : Client rt → Prop
  | .publish _ shown => ShownIn rt db shown
  | _ => True

section Clients

variable {rt : Runtime} {db : Db}

theorem Client.next_consistent (client : Client rt) (h : Consistent rt db)
    (hwaits : client.Waits db) :
    Consistent rt (client.next db).2 ∧ Extends db (client.next db).2 ∧
      (client.next db).1.Waits (client.next db).2 := by
  cases client with
  | create organizationId caseId sellerOrganizationId =>
    simp only [Client.next]
    cases hcreate : createCase rt organizationId caseId sellerOrganizationId db with
    | ok result =>
      obtain ⟨hconsistent, hextends, -⟩ := h.create hcreate
      exact ⟨hconsistent, hextends, trivial⟩
    | error e => exact ⟨h, Extends.refl db, trivial⟩
  | submit s =>
    simp only [Client.next]
    cases hsubmit : submitCommand rt s db with
    | ok result =>
      unfold submitCommand at hsubmit
      obtain ⟨exchange, hget, happly⟩ := bind_eq_ok.mp hsubmit
      obtain ⟨hmem, horg, -⟩ := getCase_eq_ok hget
      exact h.apply hmem (horg ▸ happly)
    | error e => exact ⟨h, Extends.refl db, trivial⟩
  | publish organizationId shown =>
    simp only [Client.next]
    cases hpublish : publishProjection organizationId shown db with
    | ok result =>
      obtain ⟨hconsistent, hextends⟩ := h.publish hwaits hpublish
      exact ⟨hconsistent, hextends, trivial⟩
    | error e => exact ⟨h, Extends.refl db, trivial⟩
  | returned => exact ⟨h, Extends.refl db, trivial⟩
  | raised error => exact ⟨h, Extends.refl db, trivial⟩

theorem Client.Waits.mono {client : Client rt} {db' : Db} (h : client.Waits db)
    (hextends : Extends db db') : client.Waits db' := by
  cases client with
  | publish organizationId shown => exact ShownIn.mono h hextends
  | _ => exact trivial

theorem clients_outline : System.Outline (clients rt) (fun _ _ _ => True) (Consistent rt)
    (fun db client => client.Waits db) where
  start := by
    intro db request _ _
    cases request with
    | create organizationId caseId sellerOrganizationId => exact trivial
    | submit s => exact trivial
  store := fun db client _ h hwaits _ => (client.next_consistent h hwaits).1
  own := fun db client _ h hwaits _ => (client.next_consistent h hwaits).2.2
  other := fun db client other _ h hwaits hother _ =>
    hother.mono (client.next_consistent h hwaits).2.1

theorem consistent_empty : Consistent rt {} where
  keyed := Table.keyed_nil
  linearized := fun _ h => nomatch h
  placed := fun _ h => nomatch h
  shown := fun _ h => nomatch h

/-- The tables after a run of clients that starts with empty ones. -/
def tablesAfter (events : List (Event (Request rt) Unit)) : Db :=
  ((clients rt).run ⟨{}, []⟩ events).store

theorem consistent_tablesAfter (events : List (Event (Request rt) Unit)) :
    Consistent rt (tablesAfter events) := by
  have halong : (clients rt).Along (System.StepsMeet fun _ _ _ => True) ⟨{}, []⟩ events := by
    apply System.along_of_forall
    intro w e
    cases e with
    | advance i given => exact fun _ _ => trivial
    | _ => exact trivial
  have hcalls : ∀ client ∈ ([] : List (Client rt)), client.Waits {} := by simp
  exact (clients_outline.run consistent_empty hcalls halong).1

theorem log_of_submitCommand {s : Submission rt} {compiled : CompiledTransition} {db' : Db}
    (h : submitCommand rt s db = .ok (compiled, db')) :
    db'.log s.organizationId s.caseId =
      db.log s.organizationId s.caseId ++ [s.command.toPartyCommandData] := by
  unfold submitCommand at h
  obtain ⟨exchange, hget, happly⟩ := bind_eq_ok.mp h
  obtain ⟨-, -, hid⟩ := getCase_eq_ok hget
  obtain ⟨transition, stateHash, between, record, happlied, hpublish⟩ :=
    applyAndPublish_eq_ok happly
  have htransitions : db'.transitions = between.transitions := by
    rcases publishProjection_eq_ok hpublish with ⟨rfl, -⟩ | ⟨rfl, -⟩
    · rfl
    · rfl
  unfold Db.log
  rw [← happlied.records, ← List.map_singleton, ← List.map_append,
    ← transitionsOf_append ⟨happlied.organization, happlied.caseId.trans hid⟩, Db.transitionsOf,
    htransitions, happlied.leaves]
  rfl

theorem Consistent.projections_agree (h : Consistent rt db) {c : BilateralExchangeCase}
    (hc : c ∈ db.cases) {p q : BilateralPartyProjection} (hp : p ∈ db.projections)
    (hq : q ∈ db.projections) (hpc : p.caseId = c.id) (hqc : q.caseId = c.id)
    (hversion : p.version = q.version) :
    p.released = q.released ∧ p.sourceCommandId = q.sourceCommandId := by
  obtain ⟨d, hd, hid, hshows⟩ := h.shown p hp
  obtain ⟨e, he, hid', hshows'⟩ := h.shown q hq
  obtain rfl := h.keyed.eq hd hc (hid.trans hpc)
  obtain rfl := h.keyed.eq he hc (hid'.trans hqc)
  obtain ⟨state, commandId, hp, hq⟩ := hshows.agree hshows' hversion
  obtain ⟨-, -, -, -, hreleased, hsource⟩ := projection_eq_ok hp
  obtain ⟨-, -, -, -, hreleased', hsource'⟩ := projection_eq_ok hq
  exact ⟨hreleased.trans hreleased'.symm, hsource.trans hsource'.symm⟩

/-- However the transactions of the clients are interleaved and whichever clients crash,
    every case has the version of its log: its transitions are numbered without gaps,
    no command id and no expected version occurs twice among them, what the coordinator
    holds was brought by the owners of the commands, and the projections of one version
    agree. A submission extends the log by its command, or it raises and nothing
    changes. -/
theorem versions_linearize_commands (events : List (Event (Request rt) Unit)) :
    (∀ c ∈ (tablesAfter events).cases,
      (c.version = 1 + ((tablesAfter events).log c.organizationId c.id).length ∧
        c.coordinatorState.version = c.version ∧ c.coordinatorState.state = c.state) ∧
      ((tablesAfter events).transitionsOf c.organizationId c.id).map (·.sequence) =
        List.range' 1 ((tablesAfter events).log c.organizationId c.id).length ∧
      (((tablesAfter events).log c.organizationId c.id).map (·.id)).Nodup ∧
      (((tablesAfter events).log c.organizationId c.id).map (·.expectedVersion)).Nodup ∧
      (∀ command ∈ (tablesAfter events).log c.organizationId c.id,
        command.party = command.commandType.owner) ∧
      (c.coordinatorState.requirement =
          lastPayload [.releaseRequirement] ((tablesAfter events).log c.organizationId c.id) ∧
        c.coordinatorState.evidence =
          lastPayload [.publishEvidence] ((tablesAfter events).log c.organizationId c.id) ∧
        c.coordinatorState.currentOffer =
          lastPayload [.proposeOffer, .counterOffer]
            ((tablesAfter events).log c.organizationId c.id)) ∧
      ∀ p ∈ (tablesAfter events).projections, ∀ q ∈ (tablesAfter events).projections,
        p.caseId = c.id → q.caseId = c.id → p.version = q.version →
          p.released = q.released ∧ p.sourceCommandId = q.sourceCommandId) ∧
    (∀ (s : Submission rt) compiled db',
      submitCommand rt s (tablesAfter events) = .ok (compiled, db') →
        db'.log s.organizationId s.caseId =
          (tablesAfter events).log s.organizationId s.caseId ++ [s.command.toPartyCommandData]) ∧
    ∀ (s : Submission rt) error, submitCommand rt s (tablesAfter events) = .error error →
      ((Client.submit s).next (tablesAfter events)).2 = tablesAfter events := by
  have h := consistent_tablesAfter events
  refine ⟨fun c hc => ?_, fun s compiled db' => log_of_submitCommand, fun s error hraises => ?_⟩
  · have hlinear := h.linearized c hc
    refine ⟨⟨?_, hlinear.version.symm, hlinear.state.symm⟩, hlinear.sequences, hlinear.ids, ?_,
      hlinear.owned, replay_released hlinear.replays, ?_⟩
    · rw [hlinear.version]
      exact replay_version hlinear.replays
    · rw [hlinear.expected]
      exact List.nodup_range'
    · exact fun p hp q hq => h.projections_agree hc hp hq
  · simp only [Client.next, hraises, commit]

end Clients

end Persistence
