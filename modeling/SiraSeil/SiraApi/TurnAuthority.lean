-- SUMMARY: Every tool that a turn invokes lies within its prepared manifest, and one decision of the model proposed all of them.
import SiraSeil.SiraApi.TurnJournal

/-!
# The authority of a turn

A turn narrows its tools in four places: the policy selects from those requested, the broker shows
some of the selected ones, a manifest is sealed again once tools have answered, and each call is
authorized on its own. What holds at every phase is that the invoked calls are the first ones of a
single batch, each authorized under the manifest that was prepared, and that none can follow once
the batch has answered.
-/

namespace SiraApi

namespace CognitiveEngine

open Domain Persistence SiraAgents

/-! ## Permitted calls -/

/-- A call that a turn may invoke a handler for -/
structure Permitted (engine : RunEngine) (command : TurnCommand) (manifest : ContextManifest)
    (call : ProposedToolCall) (tool : ToolManifest) : Prop where
  requested : tool.name ∈ command.availableTools
  available : tool.name ∈ manifest.availableTools
  allowed : ∀ assembler, engine.assembler = some assembler → ∃ policy,
    assembler.policies.resolve command.principal command.party command.purpose = .ok policy ∧
      tool.name ∈ policy.allowedTools
  listed : (tool.name, tool) ∈ engine.broker.catalog.items
  handled : tool.name ∈ engine.handlers
  principal : manifest.principal ∈ tool.allowedPrincipals
  party : manifest.party ∈ tool.allowedParties
  purpose : manifest.purpose ∈ tool.purposes
  stage : stage ∈ tool.allowedStages
  named : call.toolName = tool.name
  version : call.contractVersion = tool.contractVersion
  valid : engine.validator tool.inputSchema call.arguments = some []
  recorded : (Value.obj call.arguments).Canonical
  unprotected : tool.risk ≠ .protectedEffect

/-- The number of mutations among invoked calls -/
def mutations (invoked : List (ProposedToolCall × ToolManifest)) : Nat :=
  invoked.countP (fun entry => entry.2.risk = .mutation)

theorem mutations_concat (invoked : List (ProposedToolCall × ToolManifest))
    (call : ProposedToolCall) (tool : ToolManifest) :
    mutations (invoked ++ [(call, tool)]) =
      if tool.risk = .mutation then mutations invoked + 1 else mutations invoked := by
  unfold mutations
  by_cases h : tool.risk = .mutation <;> simp [List.countP_append, h]

/-- The invoked calls are the first ones of a batch that the model proposed, before
    the rest of it. -/
structure Batched (engine : RunEngine) (trace : Trace) (manifest : ContextManifest)
    (rest : List ProposedToolCall) : Prop where
  prepared : engine.prepare trace.command = .ok manifest
  proposed : ∃ batch, .proposeTools batch ∈ trace.decisions ∧
    batch.calls = trace.invoked.map Prod.fst ++ rest
  permitted : ∀ entry ∈ trace.invoked,
    Permitted engine trace.command manifest entry.1 entry.2
  budget : mutations trace.invoked ≤ manifest.budget.maxMutations

/-- The tools that a process call has invoked are within its authority. -/
def WithinAuthority (engine : RunEngine) (trace : Trace) : Prop :=
  trace.invoked = [] ∨ ∃ manifest rest, Batched engine trace manifest rest

/-- Nothing was invoked in a turn yet. -/
structure Fresh (trace : Trace) (turn : Turn) : Prop where
  invoked : trace.invoked = []
  toolResults : turn.toolResults = []
  mutationsUsed : turn.mutationsUsed = 0

/-- A proposed call of the batch, all calls before it being invoked and completed -/
structure Next (engine : RunEngine) (trace : Trace) (p : Proposed) : Prop where
  manifest : p.manifest = p.turn.manifest
  batched : Batched engine trace p.turn.manifest (p.call :: p.rest)
  used : p.turn.mutationsUsed = mutations trace.invoked

/-- A proposed call that no manifest authorizes, since the tools of the turn have answered -/
structure Spent (engine : RunEngine) (trace : Trace) (manifest : ContextManifest) : Prop where
  tools : manifest.availableTools = []
  authority : WithinAuthority engine trace

/-- A call whose handler was invoked last -/
structure Invoked (engine : RunEngine) (trace : Trace) (a : Authorized) : Prop where
  manifest : a.manifest = a.turn.manifest
  batched : Batched engine trace a.turn.manifest a.rest
  used : mutations trace.invoked =
    if a.tool.risk = .mutation then a.turn.mutationsUsed + 1 else a.turn.mutationsUsed

/-- What holds of a process call in its phase -/
def Proceeds (engine : RunEngine) (call : ProcessCall) : Prop :=
  match call.phase with
  | .capture => call.invoked = []
  | .existing _ => call.invoked = []
  | .bind turn => engine.prepare call.command = .ok turn.manifest ∧ Fresh call.toTrace turn
  | .decide turn => engine.prepare call.command = .ok turn.manifest ∧
      (Fresh call.toTrace turn ∨ turn.toolResults ≠ [] ∧ WithinAuthority engine call.toTrace)
  | .record turn manifest decision => decision ∈ call.decisions ∧
      engine.prepare call.command = .ok turn.manifest ∧
        (Fresh call.toTrace turn ∧ manifest = turn.manifest ∨ Spent engine call.toTrace manifest)
  | .authorize p => Next engine call.toTrace p ∨ Spent engine call.toTrace p.manifest
  | .execute a => Next engine call.toTrace a.toProposed ∧
      ToolBroker.Authorizes engine.validator engine.broker a.call a.manifest stage
        a.turn.mutationsUsed a.tool ∧ (Value.obj a.call.arguments).Canonical
  | .handle a => Invoked engine call.toTrace a
  | .complete a _ => Invoked engine call.toTrace a
  | .failTool _ _ _ => WithinAuthority engine call.toTrace
  | .finish _ => WithinAuthority engine call.toTrace
  | .returned _ => WithinAuthority engine call.toTrace
  | .raised _ => WithinAuthority engine call.toTrace

variable {engine : RunEngine} {trace : Trace} {call : ProcessCall} {turn : Turn}
  {manifest : ContextManifest}

/-! ## Authority at every phase -/

theorem Batched.within {rest : List ProposedToolCall} (h : Batched engine trace manifest rest) :
    WithinAuthority engine trace :=
  .inr ⟨manifest, rest, h⟩

theorem WithinAuthority.decided {modelCalls : Nat} {decisions : List TurnDecision}
    (hsub : ∀ decision ∈ trace.decisions, decision ∈ decisions)
    (h : WithinAuthority engine trace) :
    WithinAuthority engine { trace with modelCalls := modelCalls, decisions := decisions } := by
  refine h.imp (fun hnone => hnone) ?_
  rintro ⟨manifest, rest, hprepared, ⟨batch, hbatch, hcalls⟩, hpermitted, hbudget⟩
  exact ⟨manifest, rest, hprepared, ⟨batch, hsub _ hbatch, hcalls⟩, hpermitted, hbudget⟩

theorem Proceeds.within (h : Proceeds engine call) : WithinAuthority engine call.toTrace := by
  unfold Proceeds at h
  split at h
  case h_1 => exact .inl h
  case h_2 => exact .inl h
  case h_3 => exact .inl h.2.invoked
  case h_4 => exact h.2.elim (fun hfresh => .inl hfresh.invoked) And.right
  case h_5 => exact h.2.2.elim (fun hfresh => .inl hfresh.1.invoked) Spent.authority
  case h_6 => exact h.elim (fun hnext => hnext.batched.within) Spent.authority
  case h_7 => exact h.1.batched.within
  case h_8 => exact h.batched.within
  case h_9 => exact h.batched.within
  all_goals exact h

theorem proceeds_ends {failure : ToolFailure} (h : WithinAuthority engine trace) :
    Proceeds engine ⟨trace, failure.ends turn⟩ := by
  cases failure <;> exact h

theorem proceeds_captured {run : CognitiveRun} {duplicate : Bool} (h : trace.invoked = []) :
    Proceeds engine ⟨trace, captured engine trace.command run duplicate⟩ := by
  unfold captured
  split
  · exact h
  · split
    · next manifest hprepared => exact ⟨hprepared, h, rfl, rfl⟩
    · exact .inl h

theorem decisionManifest_eq_ok {rt : Runtime} (h : turn.decisionManifest rt = .ok manifest) :
    turn.toolResults = [] ∧ manifest = turn.manifest ∨
      turn.toolResults ≠ [] ∧ manifest.availableTools = [] := by
  unfold Turn.decisionManifest at h
  split at h
  · next hnone =>
    cases h
    exact .inl ⟨hnone, rfl⟩
  · next hsome =>
    obtain ⟨_, -, rfl⟩ := ContextManifest.sealed_eq_ok h
    exact .inr ⟨hsome, rfl⟩

theorem proceeds_decided {outcome : ModelOutcome}
    (hprepared : engine.prepare trace.command = .ok turn.manifest)
    (hmanifest : turn.decisionManifest engine.rt = .ok manifest)
    (h : Fresh trace turn ∨ turn.toolResults ≠ [] ∧ WithinAuthority engine trace)
    (hmade : ∀ decision, outcome = .decision decision → decision ∈ trace.decisions) :
    Proceeds engine ⟨trace, decided trace.command turn manifest outcome⟩ := by
  have hwithin : WithinAuthority engine trace :=
    h.elim (fun hfresh => .inl hfresh.invoked) And.right
  cases outcome with
  | decision decision =>
    refine ⟨hmade decision rfl, hprepared, ?_⟩
    rcases h with hfresh | ⟨hsome, -⟩
    · rcases decisionManifest_eq_ok hmanifest with ⟨-, hsame⟩ | ⟨hsome, -⟩
      · exact .inl ⟨hfresh, hsame⟩
      · exact absurd hfresh.toolResults hsome
    · rcases decisionManifest_eq_ok hmanifest with ⟨hnone, -⟩ | ⟨-, htools⟩
      · exact absurd hnone hsome
      · exact .inr ⟨htools, hwithin⟩
  | timeout => exact hwithin
  | invalid =>
    simp only [decided]
    by_cases hmore : turn.modelCall < trace.command.budget.maxModelCalls
    · rw [if_pos hmore]
      exact ⟨hprepared, h.imp (fun hfresh => ⟨hfresh.1, hfresh.2, hfresh.3⟩) (fun hafter => hafter)⟩
    · rw [if_neg hmore]
      exact hwithin
  | failure => exact hwithin

theorem proceeds_recorded {decision : TurnDecision} (hmade : decision ∈ trace.decisions)
    (hprepared : engine.prepare trace.command = .ok turn.manifest)
    (h : Fresh trace turn ∧ manifest = turn.manifest ∨ Spent engine trace manifest) :
    Proceeds engine ⟨trace, recorded trace.command turn manifest decision⟩ := by
  have hwithin : WithinAuthority engine trace :=
    h.elim (fun hfresh => .inl hfresh.1.invoked) Spent.authority
  cases decision with
  | proposeTools batch =>
    cases hcalls : batch.calls with
    | nil =>
      have hsize := batch.size.1
      rw [hcalls] at hsize
      cases hsize
    | cons first rest =>
      simp only [recorded, hcalls, proceed]
      refine h.imp ?_ (fun hspent => hspent)
      rintro ⟨⟨hinvoked, -, hused⟩, hmanifest⟩
      have hempty : mutations trace.invoked = 0 := by rw [hinvoked]; rfl
      refine ⟨hmanifest, ⟨hprepared, ⟨batch, hmade, ?_⟩, ?_, ?_⟩, ?_⟩
      · rw [hcalls, hinvoked]
        rfl
      · rw [hinvoked]
        exact nofun
      · rw [hempty]
        exact Nat.zero_le _
      · exact hused.trans hempty.symm
  | _ => exact hwithin

theorem Next.permitted {p : Proposed} {tool : ToolManifest} (hnext : Next engine trace p)
    (hauthorized : ToolBroker.Authorizes engine.validator engine.broker p.call p.manifest stage
      p.turn.mutationsUsed tool) (hcanonical : (Value.obj p.call.arguments).Canonical)
    (hhandled : tool.name ∈ engine.handlers) :
    Permitted engine trace.command p.turn.manifest p.call tool := by
  have hprepares := prepare_eq_ok hnext.batched.prepared
  rw [hnext.manifest] at hauthorized
  obtain ⟨havailable, hprincipal, hparty, hpurpose, hstage⟩ := hauthorized.shown
  refine ⟨hprepares.requested _ havailable, havailable, ?_, hauthorized.listed, hhandled, hprincipal, hparty,
    hpurpose, hstage, hauthorized.named, hauthorized.version, hauthorized.valid, hcanonical,
    hauthorized.unprotected⟩
  intro assembler hassembler
  obtain ⟨policy, hpolicy, -, hallowed⟩ := hprepares.allowed assembler hassembler
  exact ⟨policy, hpolicy, hallowed _ havailable⟩

theorem invoked_of_next {a : Authorized} (hnext : Next engine trace a.toProposed)
    (hauthorized : ToolBroker.Authorizes engine.validator engine.broker a.call a.manifest stage
      a.turn.mutationsUsed a.tool) (hcanonical : (Value.obj a.call.arguments).Canonical)
    (hhandled : a.tool.name ∈ engine.handlers) :
    Invoked engine { trace with invoked := trace.invoked ++ [(a.call, a.tool)] } a := by
  have hpermitted := hnext.permitted hauthorized hcanonical hhandled
  obtain ⟨hmanifest, ⟨hprepared, ⟨batch, hbatch, hcalls⟩, hbefore, hbudget⟩, hused⟩ := hnext
  refine ⟨hmanifest, ⟨hprepared, ⟨batch, hbatch, ?_⟩, ?_, ?_⟩, ?_⟩
  · rw [hcalls]
    simp
  · intro entry hentry
    rcases List.mem_append.mp hentry with hentry | hentry
    · exact hbefore entry hentry
    · rw [List.mem_singleton.mp hentry]
      exact hpermitted
  · rw [mutations_concat]
    split
    · next hmutation =>
      have hleft := hauthorized.inBudget hmutation
      rw [hmanifest, hused] at hleft
      exact hleft
    · exact hbudget
  · rw [mutations_concat, hused]

/-- Once a call of the batch is completed the next one follows, or a decision without tools. -/
theorem proceeds_observed {a : Authorized} {output : List (String × Value)}
    (h : Invoked engine trace a) :
    Proceeds engine ⟨trace, proceed trace.command (observed a output) a.manifest a.rest⟩ := by
  have hwithin : WithinAuthority engine trace := h.batched.within
  cases hrest : a.rest with
  | nil =>
    simp only [proceed, iterate]
    by_cases hmore : (observed a output).modelCall < trace.command.budget.maxModelCalls
    · rw [if_pos hmore]
      refine ⟨h.batched.prepared, .inr ⟨?_, hwithin⟩⟩
      exact List.append_ne_nil_of_right_ne_nil _ (List.cons_ne_nil _ _)
    · rw [if_neg hmore]
      exact hwithin
  | cons next rest => exact .inl ⟨h.manifest, hrest ▸ h.batched, h.used.symm⟩

theorem proceeds_handled {a : Authorized} {outcome : HandlerOutcome}
    (h : Invoked engine trace a) :
    Proceeds engine ⟨trace, handled engine.validator a outcome⟩ := by
  cases outcome with
  | output output =>
    simp only [handled]
    split
    · exact h
    · exact h.batched.within
  | denied => exact h.batched.within
  | timeout => exact h.batched.within
  | failure => exact h.batched.within

theorem proceeds_advance (given : TurnGiven) (s : EngineStore) (h : Proceeds engine call) :
    Proceeds engine (advance engine call given s).1 := by
  have hwithin := h.within
  obtain ⟨trace, phase⟩ := call
  cases phase with
  | capture =>
    exact commits_induction (P := fun r => Proceeds engine r.1) (fun _ _ => hwithin)
      (fun _ _ _ => proceeds_captured h)
  | existing runId =>
    exact commits_induction (P := fun r => Proceeds engine r.1) (fun _ _ => hwithin)
      (fun _ _ _ => hwithin)
  | bind turn =>
    exact commits_induction (P := fun r => Proceeds engine r.1) (fun _ _ => hwithin)
      (fun _ _ _ => ⟨h.1, .inl h.2⟩)
  | decide turn =>
    obtain ⟨hprepared, hready⟩ := h
    simp only [advance]
    split
    · exact hwithin
    · next manifest hmanifest =>
      show Proceeds engine ⟨{ trace with modelCalls := trace.modelCalls + 1, decisions := _ },
        decided trace.command turn manifest given.model⟩
      refine proceeds_decided hprepared hmanifest ?_ ?_
      · refine hready.imp (fun hfresh => ⟨hfresh.1, hfresh.2, hfresh.3⟩)
          (fun hafter => ⟨hafter.1, hafter.2.decided ?_⟩)
        intro decision hdecision
        split
        · exact List.mem_append_left _ hdecision
        · exact hdecision
      · intro decision hdecision
        rw [hdecision]
        exact List.mem_append_right _ (List.mem_singleton_self _)
  | record turn manifest decision =>
    exact commits_induction (P := fun r => Proceeds engine r.1) (fun _ _ => hwithin)
      (fun _ _ _ => proceeds_recorded h.1 h.2.1 h.2.2)
  | authorize p =>
    simp only [advance]
    split
    · exact proceeds_ends hwithin
    · next tool htool =>
      have hauthorized := ToolBroker.authorize_eq_ok.mp htool
      refine commits_induction (P := fun r => Proceeds engine r.1)
        (fun _ _ => proceeds_ends hwithin) (fun _ _ hwork => ?_)
      rcases h with hnext | hspent
      · exact ⟨hnext, hauthorized, (authorizeCall_eq_ok hwork).2.1⟩
      · exact absurd hauthorized (ToolBroker.not_authorizes_of_empty hspent.tools)
  | execute a =>
    simp only [advance]
    split
    · next hhandled => exact invoked_of_next h.1 h.2.1 h.2.2 hhandled
    · exact hwithin
  | handle a => exact proceeds_handled h
  | complete a output =>
    exact commits_induction (P := fun r => Proceeds engine r.1) (fun _ _ => hwithin)
      (fun _ _ _ => proceeds_observed h)
  | failTool turn invocationId failure =>
    exact commits_induction (P := fun r => Proceeds engine r.1) (fun _ _ => hwithin)
      (fun _ _ _ => proceeds_ends hwithin)
  | finish ending =>
    exact commits_induction (P := fun r => Proceeds engine r.1) (fun _ _ => hwithin)
      (fun _ _ _ => hwithin)
  | returned result => exact hwithin
  | raised error => exact hwithin

/-! ## Authority of every turn -/

/-- However calls interleave and whatever the model decides, the tools that a process call invokes
    were requested by its command and allowed by the policy of its principal, they are permitted
    under its manifest in their declared version with valid arguments, and none of them is
    protected; they are the first calls of one batch that the model proposed, at most four, with no
    more mutations among them than the budget of the manifest has. -/
theorem tools_run_within_authority (engine : RunEngine) (s : EngineStore)
    (events : List (Interleaving.Event EngineRequest TurnGiven)) (call : ProcessCall)
    (hcall : .process call ∈ ((system engine).run ⟨s, []⟩ events).calls) :
    call.invoked = [] ∨ ∃ manifest, engine.prepare call.command = .ok manifest ∧
      (∀ entry ∈ call.invoked, Permitted engine call.command manifest entry.1 entry.2) ∧
      (∃ batch, .proposeTools batch ∈ call.decisions ∧
        call.invoked.map Prod.fst <+: batch.calls) ∧
      call.invoked.length ≤ 4 ∧ mutations call.invoked ≤ manifest.budget.maxMutations := by
  have hproceeds : Proceeds engine call :=
    process_calls_run (fun _ => rfl) (fun _ given s => proceeds_advance given s) hcall
  refine hproceeds.within.imp (fun hnone => hnone) ?_
  rintro ⟨manifest, rest, hprepared, ⟨batch, hbatch, hcalls⟩, hpermitted, hbudget⟩
  refine ⟨manifest, hprepared, hpermitted, ⟨batch, hbatch, rest, hcalls.symm⟩, ?_, hbudget⟩
  have hsize := batch.size.2
  rw [hcalls, List.length_append, List.length_map] at hsize
  exact le_trans (Nat.le_add_right _ _) hsize

namespace Sample

/-- The model proposes to read evidence and to save a note. -/
def proposal : TurnDecision :=
  .proposeTools ⟨[readCall "call-1" "evidence-1", noteCall], by decide⟩

/-- What the steps of a turn are given, up to its manifest -/
def bindings : List TurnGiven :=
  [given "1", given "2"]

/-- The steps after that, up to the execution of the second tool -/
def bothTools : List TurnGiven :=
  [decides proposal, given "3", given "4", given "5", answers [("claim", .str "EU only.")],
    given "6", given "7", given "8"]

end Sample

theorem tools_run_within_authority_sample :
    ∃ call : ProcessCall, call.invoked.map (fun entry => entry.1.callId) = ["call-1", "call-note"] ∧
      (call.invoked = [] ∨ ∃ manifest, Sample.engine.prepare call.command = .ok manifest ∧
        (∀ entry ∈ call.invoked, Permitted Sample.engine call.command manifest entry.1 entry.2) ∧
        (∃ batch, .proposeTools batch ∈ call.decisions ∧
          call.invoked.map Prod.fst <+: batch.calls) ∧
        call.invoked.length ≤ 4 ∧ mutations call.invoked ≤ manifest.budget.maxMutations) := by
  have hprepared := Raising.eq_ok_get (x := Sample.engine.prepare Sample.command)
    (by decide +kernel)
  have hbound := processes_bound hprepared (Sample.given "1") (Sample.given "2") rfl rfl
  refine ⟨(processes Sample.engine { command := Sample.command } {}
    (Sample.bindings ++ Sample.bothTools)).1, ?_, ?_⟩
  · rw [processes_append, show Sample.bindings = [Sample.given "1", Sample.given "2"] from rfl,
      hbound]
    decide +kernel
  · refine tools_run_within_authority Sample.engine {} (.start (.process Sample.command)
      (Sample.given "0") :: (Sample.bindings ++ Sample.bothTools).map (.advance 0)) _ ?_
    rw [run_process]
    exact List.mem_singleton_self _

end CognitiveEngine

end SiraApi
