-- SUMMARY: Which budget bounds a turn: the loop counts against the budget of the command, and mutations count against that of the manifest.
import SiraSeil.SiraApi.TurnAuthority

/-!
# The budgets of a turn

A command carries a budget, and its manifest seals the one of the policy. The loop over model calls
reads the first and the broker reads the second, so that a turn keeps to both only where they agree.
-/

namespace SiraApi

namespace CognitiveEngine

open Domain Persistence SiraAgents

/-! ## Model calls against the budget of the command -/

/-- The model calls of a turn are those of its loop, within the budget of its command. -/
structure Counted (trace : Trace) (modelCalls : Nat) (turn : Turn) : Prop where
  same : modelCalls = turn.modelCall
  within : turn.modelCall ≤ trace.command.budget.maxModelCalls

/-- How many model calls there were in a phase -/
def CallsCounted (call : ProcessCall) : Prop :=
  match call.phase with
  | .capture => call.modelCalls = 0
  | .existing _ => call.modelCalls = 0
  | .bind turn => call.modelCalls = 0 ∧ turn.modelCall = 1
  | .decide turn => Counted call.toTrace (call.modelCalls + 1) turn
  | .record turn _ _ => Counted call.toTrace call.modelCalls turn
  | .authorize p => Counted call.toTrace call.modelCalls p.turn
  | .execute a => Counted call.toTrace call.modelCalls a.turn
  | .handle a => Counted call.toTrace call.modelCalls a.turn
  | .complete a _ => Counted call.toTrace call.modelCalls a.turn
  | .failTool _ _ _ => call.modelCalls ≤ call.command.budget.maxModelCalls
  | .finish _ => call.modelCalls ≤ call.command.budget.maxModelCalls
  | .returned _ => call.modelCalls ≤ call.command.budget.maxModelCalls
  | .raised _ => call.modelCalls ≤ call.command.budget.maxModelCalls

variable {engine : RunEngine} {command : TurnCommand} {trace : Trace} {call : ProcessCall}
  {turn : Turn} {manifest : ContextManifest}

theorem Counted.le (h : Counted trace trace.modelCalls turn) :
    trace.modelCalls ≤ trace.command.budget.maxModelCalls :=
  h.same ▸ h.within

theorem CallsCounted.le (h : CallsCounted call) :
    call.modelCalls ≤ call.command.budget.maxModelCalls := by
  unfold CallsCounted at h
  split at h
  case h_1 => exact h ▸ Nat.zero_le _
  case h_2 => exact h ▸ Nat.zero_le _
  case h_3 => exact h.1 ▸ Nat.zero_le _
  case h_4 =>
    have hsucc := h.same ▸ h.within
    exact Nat.le_of_succ_le hsucc
  case h_5 => exact h.le
  case h_6 => exact h.le
  case h_7 => exact h.le
  case h_8 => exact h.le
  case h_9 => exact h.le
  all_goals exact h

theorem callsCounted_ends {failure : ToolFailure}
    (h : trace.modelCalls ≤ trace.command.budget.maxModelCalls) :
    CallsCounted ⟨trace, failure.ends turn⟩ := by
  cases failure <;> exact h

/-- The next iteration makes one more model call, if the budget of the command has one left. -/
theorem callsCounted_proceed (h : Counted trace trace.modelCalls turn)
    (calls : List ProposedToolCall) :
    CallsCounted ⟨trace, proceed trace.command turn manifest calls⟩ := by
  cases calls with
  | nil =>
    simp only [proceed, iterate]
    by_cases hmore : turn.modelCall < trace.command.budget.maxModelCalls
    · rw [if_pos hmore]
      exact ⟨congrArg Nat.succ h.same, hmore⟩
    · rw [if_neg hmore]
      exact h.le
  | cons next rest => exact ⟨h.same, h.within⟩

theorem callsCounted_decided (h : Counted trace trace.modelCalls turn) (outcome : ModelOutcome) :
    CallsCounted ⟨trace, decided trace.command turn manifest outcome⟩ := by
  cases outcome with
  | decision decision => exact ⟨h.same, h.within⟩
  | timeout => exact h.le
  | invalid =>
    simp only [decided]
    by_cases hmore : turn.modelCall < trace.command.budget.maxModelCalls
    · rw [if_pos hmore]
      exact ⟨congrArg Nat.succ h.same, hmore⟩
    · rw [if_neg hmore]
      exact h.le
  | failure => exact h.le

theorem callsCounted_recorded (h : Counted trace trace.modelCalls turn)
    (decision : TurnDecision) :
    CallsCounted ⟨trace, recorded trace.command turn manifest decision⟩ := by
  cases decision with
  | proposeTools batch =>
    have hcounted : Counted trace trace.modelCalls { turn with toolResults := [] } :=
      ⟨h.same, h.within⟩
    exact callsCounted_proceed hcounted batch.calls
  | _ => exact h.le

theorem callsCounted_captured {run : CognitiveRun} {duplicate : Bool}
    (h : trace.modelCalls = 0) :
    CallsCounted ⟨trace, captured engine trace.command run duplicate⟩ := by
  unfold captured
  split
  · exact h
  · split
    · exact ⟨h, rfl⟩
    · exact h.trans_le (Nat.zero_le _)

theorem callsCounted_handled {a : Authorized} (h : Counted trace trace.modelCalls a.turn)
    (outcome : HandlerOutcome) :
    CallsCounted ⟨trace, handled engine.validator a outcome⟩ := by
  cases outcome with
  | output output =>
    simp only [handled]
    split
    · exact h
    · exact h.le
  | denied => exact h.le
  | timeout => exact h.le
  | failure => exact h.le

theorem callsCounted_advance (given : TurnGiven) (s : EngineStore) (h : CallsCounted call) :
    CallsCounted (advance engine call given s).1 := by
  have hle := h.le
  obtain ⟨trace, phase⟩ := call
  cases phase with
  | capture =>
    exact commits_induction (P := fun r => CallsCounted r.1) (fun _ _ => hle)
      (fun _ _ _ => callsCounted_captured h)
  | existing runId =>
    exact commits_induction (P := fun r => CallsCounted r.1) (fun _ _ => hle) (fun _ _ _ => hle)
  | bind turn =>
    refine commits_induction (P := fun r => CallsCounted r.1) (fun _ _ => hle) (fun _ _ _ => ?_)
    obtain ⟨hnone, hfirst⟩ := h
    refine ⟨?_, ?_⟩
    · rw [hfirst]
      exact congrArg Nat.succ hnone
    · rw [hfirst]
      exact trace.command.budget.modelCalls.1
  | decide turn =>
    simp only [advance]
    split
    · exact hle
    · next manifest hmanifest =>
      show CallsCounted ⟨{ trace with modelCalls := trace.modelCalls + 1, decisions := _ },
        decided trace.command turn manifest given.model⟩
      refine callsCounted_decided ?_ given.model
      exact ⟨h.same, h.within⟩
  | record turn manifest decision =>
    exact commits_induction (P := fun r => CallsCounted r.1) (fun _ _ => hle)
      (fun _ _ _ => callsCounted_recorded h decision)
  | authorize p =>
    simp only [advance]
    split
    · exact callsCounted_ends hle
    · exact commits_induction (P := fun r => CallsCounted r.1)
        (fun _ _ => callsCounted_ends hle) (fun _ _ _ => ⟨h.same, h.within⟩)
  | execute a =>
    simp only [advance]
    split
    · exact ⟨h.same, h.within⟩
    · exact hle
  | handle a => exact callsCounted_handled h given.handler
  | complete a output =>
    have hcounted : Counted trace trace.modelCalls (observed a output) := ⟨h.same, h.within⟩
    exact commits_induction (P := fun r => CallsCounted r.1) (fun _ _ => hle)
      (fun _ _ _ => callsCounted_proceed hcounted a.rest)
  | failTool turn invocationId failure =>
    exact commits_induction (P := fun r => CallsCounted r.1) (fun _ _ => hle)
      (fun _ _ _ => callsCounted_ends hle)
  | finish ending =>
    exact commits_induction (P := fun r => CallsCounted r.1) (fun _ _ => hle) (fun _ _ _ => hle)
  | returned result => exact hle
  | raised error => exact hle

theorem modelCalls_le {s : EngineStore}
    {events : List (Interleaving.Event EngineRequest TurnGiven)}
    (hcall : .process call ∈ ((system engine).run ⟨s, []⟩ events).calls) :
    call.modelCalls ≤ call.command.budget.maxModelCalls :=
  (process_calls_run (P := CallsCounted) (fun _ => rfl)
    (fun _ given s => callsCounted_advance given s) hcall).le

/-! ## Mutations -/

/-- A mutation that a turn under a manifest may invoke first -/
def MayMutate (engine : RunEngine) (manifest : ContextManifest) : Prop :=
  ∃ call tool, ToolBroker.Authorizes engine.validator engine.broker call manifest stage 0 tool ∧
    tool.risk = .mutation ∧ tool.name ∈ engine.handlers ∧ (Value.obj call.arguments).Canonical

/-- The two budgets of a turn agree where the turn can tell: the command allows no more model calls
    than the manifest, and no fewer mutations, unless there is none to make. -/
structure BudgetsAgree (engine : RunEngine) (command : TurnCommand) (manifest : ContextManifest) :
    Prop where
  modelCalls : command.budget.maxModelCalls ≤ manifest.budget.maxModelCalls
  mutations : manifest.budget.maxMutations ≤ command.budget.maxMutations ∨
    ¬ MayMutate engine manifest

/-- No process call for a command exceeds the budget of the command or of its manifest. -/
def BudgetsGovern (engine : RunEngine) (command : TurnCommand) : Prop :=
  ∀ s events call manifest, .process call ∈ ((system engine).run ⟨s, []⟩ events).calls →
    call.command = command → engine.prepare command = .ok manifest →
      call.modelCalls ≤ command.budget.maxModelCalls ∧
        call.modelCalls ≤ manifest.budget.maxModelCalls ∧
          mutations call.invoked ≤ command.budget.maxMutations ∧
            mutations call.invoked ≤ manifest.budget.maxMutations

theorem mayMutate_of_batched {rest : List ProposedToolCall}
    (h : Batched engine trace manifest rest) (hmutation : 0 < mutations trace.invoked) :
    MayMutate engine manifest := by
  obtain ⟨⟨call, tool⟩, hentry, hrisk⟩ := List.countP_pos_iff.mp hmutation
  have hrisk : tool.risk = .mutation := of_decide_eq_true hrisk
  have hpermitted : Permitted engine trace.command manifest call tool := h.permitted _ hentry
  have hbudget : 0 < manifest.budget.maxMutations := lt_of_lt_of_le hmutation h.budget
  refine ⟨call, tool, ⟨hpermitted.named, hpermitted.listed, ?_, hpermitted.version,
    hpermitted.unprotected, fun _ => hbudget, hpermitted.valid⟩, hrisk, hpermitted.handled,
    hpermitted.recorded⟩
  exact ⟨hpermitted.available, hpermitted.principal, hpermitted.party, hpermitted.purpose,
    hpermitted.stage⟩

theorem budgetsGovern_of_agree
    (h : ∀ manifest, engine.prepare command = .ok manifest → BudgetsAgree engine command manifest) :
    BudgetsGovern engine command := by
  rintro s events call manifest hcall rfl hprepared
  obtain ⟨hagree, hmutations⟩ := h manifest hprepared
  have hle := modelCalls_le hcall
  refine ⟨hle, le_trans hle hagree, ?_⟩
  have hproceeds : Proceeds engine call :=
    process_calls_run (fun _ => rfl) (fun _ given s => proceeds_advance given s) hcall
  rcases hproceeds.within with hnone | ⟨sealed, rest, hbatched⟩
  · rw [hnone]
    exact ⟨Nat.zero_le _, Nat.zero_le _⟩
  · obtain rfl : sealed = manifest :=
      Except.ok.inj (hbatched.prepared.symm.trans hprepared)
    refine ⟨?_, hbatched.budget⟩
    rcases hmutations with hfewer | hnever
    · exact le_trans hbatched.budget hfewer
    · by_contra hover
      exact hnever (mayMutate_of_batched hbatched (Nat.pos_of_ne_zero (fun hzero => by
        rw [hzero] at hover
        exact hover (Nat.zero_le _))))

/-! ## Runs that use a budget up -/

/-- The model decides nothing valid. -/
def invalid : TurnGiven where
  now := 0
  uuid := fun _ => ""
  model := .invalid

theorem advance_invalid (s : EngineStore) (hfresh : turn.toolResults = []) :
    advance engine ⟨trace, .decide turn⟩ invalid s =
      (⟨{ trace with modelCalls := trace.modelCalls + 1 },
        decided trace.command turn turn.manifest .invalid⟩, s) := by
  simp only [advance, Turn.decisionManifest]
  rw [if_pos hfresh]
  rfl

/-- A model that keeps deciding nothing valid is called as often as the command allows. -/
theorem processes_exhausted (engine : RunEngine) (trace : Trace) (turn : Turn) (s : EngineStore)
    (hfresh : turn.toolResults = []) (n : Nat)
    (hleft : turn.modelCall + n = trace.command.budget.maxModelCalls) :
    (processes engine ⟨trace, .decide turn⟩ s (List.replicate (n + 1) invalid)).1.modelCalls =
        trace.modelCalls + n + 1 ∧
      (processes engine ⟨trace, .decide turn⟩ s (List.replicate (n + 1) invalid)).1.command =
        trace.command := by
  induction n generalizing turn trace with
  | zero =>
    rw [List.replicate_succ, processes_cons, advance_invalid s hfresh]
    exact ⟨rfl, rfl⟩
  | succ n ih =>
    have hmore : turn.modelCall < trace.command.budget.maxModelCalls := by omega
    have hnext : decided trace.command turn turn.manifest .invalid =
        .decide { turn with modelCall := turn.modelCall + 1 } := if_pos hmore
    obtain ⟨hcalls, hcommand⟩ := ih { trace with modelCalls := trace.modelCalls + 1 }
      { turn with modelCall := turn.modelCall + 1 } hfresh (by
        show turn.modelCall + 1 + n = trace.command.budget.maxModelCalls
        omega)
    rw [List.replicate_succ, processes_cons, advance_invalid s hfresh, hnext]
    refine ⟨hcalls.trans ?_, hcommand⟩
    show trace.modelCalls + 1 + n + 1 = trace.modelCalls + (n + 1) + 1
    omega

/-- A mutation that the manifest of a turn authorizes is invoked when the model proposes it. -/
theorem exists_mutated (trace : Trace) (turn : Turn) {s : EngineStore} {run : CognitiveRun}
    {proposed : ProposedToolCall} {tool : ToolManifest} (hfresh : turn.toolResults = [])
    (hunused : turn.mutationsUsed = 0)
    (hrun : s.journal.get trace.command.organizationId turn.runId = .ok run)
    (hempty : s.journal.invocations = [])
    (hauthorized : ToolBroker.Authorizes engine.validator engine.broker proposed turn.manifest stage
      0 tool) (hhandled : tool.name ∈ engine.handlers)
    (hcanonical : (Value.obj proposed.arguments).Canonical) :
    ∃ givens, (processes engine ⟨trace, .decide turn⟩ s givens).1.invoked =
        trace.invoked ++ [(proposed, tool)] ∧
      (processes engine ⟨trace, .decide turn⟩ s givens).1.command = trace.command := by
  let decision : TurnDecision := .proposeTools ⟨[proposed], ⟨Nat.le_refl 1, Nat.le_add_left 1 3⟩⟩
  let proposes : TurnGiven := { quiet with model := .decision decision }
  let made : Trace := { trace with
    modelCalls := trace.modelCalls + 1
    decisions := trace.decisions ++ [decision] }
  let p : Proposed := ⟨{ turn with toolResults := [] }, turn.manifest, proposed, []⟩
  have hdecide : advance engine ⟨trace, .decide turn⟩ proposes s =
      (⟨made, .record turn turn.manifest decision⟩, s) := by
    simp only [advance, Turn.decisionManifest]
    rw [if_pos hfresh]
    rfl
  have hpayload : (Value.obj decision.payload).Canonical := by
    simp only [Value.canonical_obj] at hcanonical
    simp [decision, TurnDecision.payload, ProposedToolCall.toValue]
    exact fun name value hmem => hcanonical (name, value) hmem
  obtain ⟨recorded, hrecord⟩ := exists_recordTurn hrun hpayload
  have hrecorded : advance engine ⟨made, .record turn turn.manifest decision⟩ quiet s =
      (⟨made, .authorize p⟩, { s with journal := recorded }) := by
    simp only [advance]
    rw [commits_ok s (recordTurn engine.rt trace.command.organizationId turn.runId decision) rfl
      hrecord]
    rfl
  obtain ⟨-, -, hruns, hinvocations⟩ := recordTurn_eq_ok hrecord
  have hget := Journal.get_update hruns (fun _ => ⟨rfl, rfl⟩) hrun
  have hnone : recorded.invocations = [] := hinvocations.trans hempty
  have hrequestable : Requestable engine.rt trace.command.organizationId turn.runId proposed
      recorded := by
    intro existing hexisting
    unfold Journal.invocation? at hexisting
    rw [hnone] at hexisting
    cases hexisting
  obtain ⟨⟨invocationId, requested⟩, hcall⟩ := exists_authorizeCall tool quiet.toGiven hget
    hcanonical hrequestable (by rw [hnone]; exact nofun)
  have hauthorize : advance engine ⟨made, .authorize p⟩ quiet { s with journal := recorded } =
      (⟨made, authorizedPhase p tool invocationId⟩, { s with journal := requested }) := by
    have hbroker : engine.broker.authorize engine.validator p.call p.manifest stage
        p.turn.mutationsUsed = .ok tool :=
      ToolBroker.authorize_eq_ok.mpr (hunused ▸ hauthorized)
    simp only [advance, hbroker]
    rw [commits_ok { s with journal := recorded }
      (authorizeCall engine.rt trace.command.organizationId turn.runId proposed tool quiet.toGiven)
      rfl hcall]
  refine ⟨[proposes, quiet, quiet, quiet], ?_⟩
  rw [processes_cons, hdecide, processes_cons, hrecorded, processes_cons, hauthorize,
    processes_cons, processes_nil]
  simp only [advance, authorizedPhase, if_pos hhandled]
  exact ⟨rfl, rfl⟩

/-- A process call keeps to both of its budgets in every run exactly where the command allows no
    more model calls than the sealed budget, and no fewer mutations than it unless no mutation can
    be authorized. -/
theorem budgets_govern_iff (engine : RunEngine) (command : TurnCommand) :
    BudgetsGovern engine command ↔
      ∀ manifest, engine.prepare command = .ok manifest → BudgetsAgree engine command manifest := by
  refine ⟨fun hgovern manifest hprepared => ?_, budgetsGovern_of_agree⟩
  have hbound := processes_bound hprepared quiet quiet rfl rfl
  obtain ⟨⟨run, hrun⟩, hempty⟩ := bound_journal engine command quiet manifest
  generalize boundStore engine command quiet manifest = s at hbound hrun hempty
  have halong : ∀ givens, EngineCall.process (processes engine
      ⟨{ command := command }, .decide (boundTurn quiet manifest)⟩ s givens).1 ∈
        ((system engine).run ⟨{}, []⟩ (.start (.process command) quiet ::
          ([quiet, quiet] ++ givens).map (.advance 0))).calls := by
    intro givens
    rw [run_process, processes_append, hbound]
    exact List.mem_singleton_self _
  constructor
  case modelCalls =>
    have hleft : 1 + (command.budget.maxModelCalls - 1) = command.budget.maxModelCalls := by
      have hpositive := command.budget.modelCalls.1
      omega
    obtain ⟨hcalls, hcommand⟩ := processes_exhausted engine { command := command }
      (boundTurn quiet manifest) s rfl _ hleft
    have hle := (hgovern _ _ _ manifest (halong _) hcommand hprepared).2.1
    rw [hcalls] at hle
    show command.budget.maxModelCalls ≤ manifest.budget.maxModelCalls
    have hzero : (0 : Nat) + (command.budget.maxModelCalls - 1) + 1 ≤
        manifest.budget.maxModelCalls := hle
    omega
  case mutations =>
    by_cases hmay : MayMutate engine manifest
    · obtain ⟨proposed, tool, hauthorized, hrisk, hhandled, hcanonical⟩ := hmay
      obtain ⟨givens, hinvoked, hcommand⟩ := exists_mutated { command := command }
        (boundTurn quiet manifest) rfl rfl hrun hempty hauthorized hhandled hcanonical
      have hle := (hgovern _ _ _ manifest (halong givens) hcommand hprepared).2.2.1
      rw [hinvoked, mutations_concat, if_pos hrisk] at hle
      exact .inl (le_trans manifest.budget.mutations (le_trans (Nat.le_add_left 1 _) hle))
    · exact .inr hmay

namespace Sample

/-- The buyer's policy allows one model call to a turn. -/
def tightPolicy : PrincipalPolicy where
  principal := .sira
  party := .buyer
  purpose := "software_selection"
  allowedTools := ["read_evidence"]
  budget := { Sample.command.budget with maxModelCalls := 1, modelCalls := by decide }

def tightEngine : RunEngine :=
  { Sample.engine with assembler := some ⟨⟨[tightPolicy]⟩⟩ }

end Sample

/-- A turn whose policy allows one model call makes the three that its command allows. -/
theorem policy_budget_is_exceeded :
    ∃ call manifest, .process call ∈ ((system Sample.tightEngine).run ⟨{}, []⟩
        (.start (.process Sample.command) quiet ::
          [quiet, quiet, invalid, invalid, invalid].map (.advance 0))).calls ∧
      call.command = Sample.command ∧ Sample.tightEngine.prepare Sample.command = .ok manifest ∧
        manifest.budget.maxModelCalls = 1 ∧ call.modelCalls = 3 ∧
          ¬ BudgetsGovern Sample.tightEngine Sample.command := by
  obtain ⟨manifest, hprepared⟩ := Raising.exists_of_isOk
    (x := Sample.tightEngine.prepare Sample.command) (by decide +kernel)
  have hbound := processes_bound hprepared quiet quiet rfl rfl
  obtain ⟨hcalls, hcommand⟩ := processes_exhausted Sample.tightEngine
    { command := Sample.command } (boundTurn quiet manifest)
    (boundStore Sample.tightEngine Sample.command quiet manifest) rfl 2 rfl
  have hsealed : manifest.budget.maxModelCalls = 1 := by
    obtain ⟨policy, hpolicy, hbudget, -⟩ := (prepare_eq_ok hprepared).allowed _ rfl
    have hresolved : policy = Sample.tightPolicy := (Except.ok.inj hpolicy).symm
    rw [hbudget, hresolved]
    rfl
  have hmem : EngineCall.process (processes Sample.tightEngine
      ⟨{ command := Sample.command }, .decide (boundTurn quiet manifest)⟩
      (boundStore Sample.tightEngine Sample.command quiet manifest) (List.replicate 3 invalid)).1 ∈
        ((system Sample.tightEngine).run ⟨{}, []⟩ (.start (.process Sample.command) quiet ::
          [quiet, quiet, invalid, invalid, invalid].map (.advance 0))).calls := by
    rw [run_process, show [quiet, quiet, invalid, invalid, invalid] =
      [quiet, quiet] ++ List.replicate 3 invalid from rfl, processes_append, hbound]
    exact List.mem_singleton_self _
  refine ⟨_, manifest, hmem, hcommand, hprepared, hsealed, hcalls, fun hgovern => ?_⟩
  have hle := (hgovern _ _ _ manifest hmem hcommand hprepared).2.1
  rw [hcalls, hsealed] at hle
  exact absurd hle (by decide)

end CognitiveEngine

end SiraApi
