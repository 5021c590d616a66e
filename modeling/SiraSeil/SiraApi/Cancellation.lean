-- SUMMARY: When a cancellation is final: while it lands on runs that no process call is at work on, and no call finishes a run that another one ended differently.
import SiraSeil.SiraApi.TurnEffects

/-!
# Cancellation

Cancelling a run sets its status and nothing else. The transactions of a turn reload the run, but
only the last of them looks at the status, so that a cancellation in the middle of a turn is
overwritten by the binding of a manifest or passed over by its tools.
-/

namespace SiraApi

namespace CognitiveEngine

open Domain Persistence SiraAgents

/-! ## What a cancelled run keeps -/

def isInvocationOf (run : CognitiveRun) (i : CognitiveToolInvocation) : Bool :=
  i.organizationId = run.organizationId ∧ i.runId = run.id

/-- A cancelled run stays cancelled, its invocations stay as they are, and no handler is invoked for
    it. -/
structure KeepsCancelled (s s' : EngineStore) (run : CognitiveRun) : Prop where
  status : ∃ run' ∈ s'.journal.runs, run'.organizationId = run.organizationId ∧
    run'.id = run.id ∧ run'.status = .cancelled
  invocations : s'.journal.invocations.filter (isInvocationOf run) =
    s.journal.invocations.filter (isInvocationOf run)
  executions : s'.executions.filter (·.runId = run.id) = s.executions.filter (·.runId = run.id)

def CancelledStay (s s' : EngineStore) : Prop :=
  ∀ run ∈ s.journal.runs, run.status = .cancelled → KeepsCancelled s s' run

theorem CancelledStay.refl (s : EngineStore) : CancelledStay s s :=
  fun run hrun hstatus => ⟨⟨run, hrun, rfl, rfl, hstatus⟩, rfl, rfl⟩

theorem CancelledStay.trans {s t u : EngineStore} (h : CancelledStay s t) (h' : CancelledStay t u) :
    CancelledStay s u := by
  intro run hrun hstatus
  obtain ⟨⟨later, hlater, horganization, hid, hstill⟩, hinvocations, hexecutions⟩ :=
    h run hrun hstatus
  obtain ⟨⟨last, hlast, horganization', hid', hlastly⟩, hinvocations', hexecutions'⟩ :=
    h' later hlater hstill
  have hof : isInvocationOf later = isInvocationOf run := by
    unfold isInvocationOf
    rw [horganization, hid]
  rw [hof] at hinvocations'
  rw [hid] at hexecutions'
  exact ⟨⟨last, hlast, horganization'.trans horganization, hid'.trans hid, hlastly⟩,
    hinvocations'.trans hinvocations, hexecutions'.trans hexecutions⟩

/-! ## Runs without disturbance -/

/-- The run of an organization that a call is at work on -/
def EngineCall.atWork : EngineCall → Option (String × String)
  | .process call => call.phase.runId?.map (fun runId => (call.command.organizationId, runId))
  | .cancel _ _ => none
  | .cancelled => none

/-- A cancellation that ends a run finds no process call at work on it, and a process call that
    finishes an ended run ends it alike. -/
def LandsAlone (w : Interleaving.World EngineStore EngineCall) : EngineCall → Prop
  | .cancel organizationId runId => ∀ run,
      w.store.journal.get organizationId runId = .ok run → ¬ run.status.Final →
        ∀ other ∈ w.calls, other.atWork ≠ some (organizationId, runId)
  | .process ⟨trace, .finish ending⟩ => ∀ run,
      w.store.journal.get trace.command.organizationId ending.runId = .ok run →
        run.status.Final → run.status = ending.status
  | _ => True

instance (w : Interleaving.World EngineStore EngineCall) : (c : EngineCall) → Decidable (LandsAlone w c)
  | .cancel _ _ => inferInstanceAs (Decidable (∀ _, _ = Except.ok _ → _))
  | .process ⟨_, .finish _⟩ => inferInstanceAs (Decidable (∀ _, _ = Except.ok _ → _))
  | .process ⟨_, .capture⟩ | .process ⟨_, .existing _⟩ | .process ⟨_, .bind _⟩
  | .process ⟨_, .decide _⟩ | .process ⟨_, .record _ _ _⟩ | .process ⟨_, .authorize _⟩
  | .process ⟨_, .execute _⟩ | .process ⟨_, .handle _⟩ | .process ⟨_, .complete _ _⟩
  | .process ⟨_, .failTool _ _ _⟩ | .process ⟨_, .returned _⟩ | .process ⟨_, .raised _⟩
  | .cancelled => .isTrue trivial

/-- The call that takes a step lands alone. -/
def Undisturbed (w : Interleaving.World EngineStore EngineCall) :
    Interleaving.Event EngineRequest TurnGiven → Prop
  | .advance i _ => ∀ c ∈ w.calls[i]?, LandsAlone w c
  | .start _ _ => True
  | .crash _ => True

instance (w : Interleaving.World EngineStore EngineCall) :
    (e : Interleaving.Event EngineRequest TurnGiven) → Decidable (Undisturbed w e)
  | .advance _ _ => inferInstanceAs (Decidable (∀ c ∈ _, _))
  | .start _ _ => .isTrue trivial
  | .crash _ => .isTrue trivial

/-- A process call that returns a result returns the stored status of its run. -/
def AnswersTruly (engine : RunEngine) (w : Interleaving.World EngineStore EngineCall) :
    Interleaving.Event EngineRequest TurnGiven → Prop
  | .advance i given => ∀ call result, w.calls[i]? = some (.process call) →
    (∀ before, call.phase ≠ .returned before) →
      (advance engine call given w.store).1.phase = .returned result →
        ∃ run, (advance engine call given w.store).2.journal.get call.command.organizationId
            result.runId = .ok run ∧ run.status = result.status
  | .start _ _ => True
  | .crash _ => True

/-- The call is at work on a run that is not cancelled, and ends as a turn ends. -/
def Alive (s : EngineStore) (c : EngineCall) : Prop :=
  (∀ organizationId runId, c.atWork = some (organizationId, runId) → ∃ run,
    s.journal.get organizationId runId = .ok run ∧ run.status ≠ .cancelled) ∧
  ∀ call, c = .process call → call.phase.EndsOpenly

/-- The journal is keyed and its calls are at work on runs that are not cancelled. -/
structure Working (w : Interleaving.World EngineStore EngineCall) : Prop where
  keyed : w.store.journal.Keyed
  alive : ∀ c ∈ w.calls, Alive w.store c

variable {engine : RunEngine} {call : ProcessCall} {given : TurnGiven} {s s' : EngineStore}

/-! ## One step of a process call -/

theorem keyed_advance (hkeyed : s.journal.Keyed) (hruns : RunsChange call s s')
    (hinvocations : InvocationsChange call s s') : s'.journal.Keyed := by
  constructor
  · cases hruns with
    | same h => exact h ▸ hkeyed.runs
    | captured run _ _ _ hfresh h =>
      rw [h]
      exact hkeyed.runs.append hfresh
    | changed runId f _ _ hkeeps _ h =>
      rw [h]
      exact hkeyed.runs.update (fun r => (hkeeps r).2)
  · cases hinvocations with
    | same h => exact h ▸ hkeyed.invocations
    | changed runId invocationId f _ _ hkeeps h =>
      rw [h]
      exact hkeyed.invocations.update (fun i => (hkeeps i).2.2)
    | added runId i _ _ hfresh h =>
      rw [h]
      exact hkeyed.invocations.append hfresh

theorem cancelledStay_advance (hkeyed : s.journal.Keyed)
    (halive : ∀ runId, call.phase.runId? = some runId → ∃ run,
      s.journal.get call.command.organizationId runId = .ok run ∧ run.status ≠ .cancelled)
    (hruns : RunsChange call s s') (hinvocations : InvocationsChange call s s')
    (hexecutions : ExecutionsChange call s s') : CancelledStay s s' := by
  intro run hrun hstatus
  -- The run that the call is at work on is another one.
  have hother : ∀ runId, call.phase.runId? = some runId → run.id ≠ runId := by
    intro runId hphase hid
    obtain ⟨row, hrow, hlive⟩ := halive runId hphase
    rw [hkeyed.get_unique hrow hrun hid] at hstatus
    exact hlive hstatus
  refine ⟨?_, ?_, ?_⟩
  · cases hruns with
    | same h => exact ⟨run, h ▸ hrun, rfl, rfl, hstatus⟩
    | captured new _ _ _ _ h =>
      exact ⟨run, h ▸ List.mem_append_left _ hrun, rfl, rfl, hstatus⟩
    | changed runId f hphase _ _ _ h =>
      exact ⟨run, h ▸ Table.mem_update.mpr (.inr ⟨hrun, hother runId hphase⟩), rfl, rfl, hstatus⟩
  · cases hinvocations with
    | same h => rw [h]
    | changed runId invocationId f hphase hrow hkeeps h =>
      obtain ⟨i, hi, -, hof, hid⟩ := hrow
      rw [h]
      refine Table.filter_update_of_not ?_ ?_
      · intro r
        unfold isInvocationOf
        rw [(hkeeps r).1, (hkeeps r).2.1]
      · intro r hr hkey
        obtain rfl : r = i := hkeyed.invocations.eq hr hi (hkey.trans hid.symm)
        exact decide_eq_false (fun hsame => hother runId hphase (hsame.2.symm.trans hof))
    | added runId i hphase hof _ h =>
      rw [h]
      exact Table.filter_concat_of_not
        (decide_eq_false (fun hsame => hother runId hphase (hsame.2.symm.trans hof.2)))
  · cases hexecutions with
    | same h => rw [h]
    | added runId e hphase hof h =>
      rw [h]
      exact Table.filter_concat_of_not
        (decide_eq_false (fun hsame => hother runId hphase (hsame.symm.trans hof)))

theorem alive_runsChange {organizationId runId : String} {run : CognitiveRun}
    (hruns : RunsChange call s s') (hget : s.journal.get organizationId runId = .ok run)
    (hlive : run.status ≠ .cancelled) :
    ∃ run', s'.journal.get organizationId runId = .ok run' ∧ run'.status ≠ .cancelled := by
  cases hruns with
  | same h =>
    refine ⟨run, ?_, hlive⟩
    unfold Journal.get at hget ⊢
    rw [h]
    exact hget
  | captured new _ _ _ _ h => exact ⟨run, Journal.get_append h hget, hlive⟩
  | changed changedId f _ _ hkeeps hcancels h =>
    refine ⟨_, Journal.get_update h hkeeps hget, ?_⟩
    split
    · exact fun hcancelled => hlive (hcancels run hcancelled)
    · exact hlive

theorem alive_captured (hkeyed : s.journal.Keyed) {trace : Trace} {runId : String}
    (hphase : (advance engine ⟨trace, .capture⟩ given s).1.phase.runId? = some runId) :
    ∃ run, (advance engine ⟨trace, .capture⟩ given s).2.journal.get trace.command.organizationId
      runId = .ok run ∧ run.status ≠ .cancelled := by
  revert hphase
  simp only [advance]
  refine commits_induction (P := fun r => r.1.phase.runId? = some runId → ∃ run,
    r.2.journal.get trace.command.organizationId runId = .ok run ∧ run.status ≠ .cancelled)
    (fun _ _ hphase => by cases hphase) ?_
  rintro ⟨run, duplicate⟩ j hwork hphase
  -- A run that was settled before is read only, so that the one to be bound is open.
  have hopen : run.id = runId ∧ ¬ (duplicate ∧ (run.status.Final ∨ run.status = .waiting)) := by
    unfold captured at hphase
    split at hphase
    · cases hphase
    · next hopen =>
      split at hphase
      · exact ⟨Option.some.inj hphase, hopen⟩
      · cases hphase
  obtain ⟨rfl, hopen⟩ := hopen
  obtain ⟨-, ⟨rfl, rfl, hmem, horganization, -⟩ | ⟨-, ⟨hash, hnew⟩, hfresh, hruns, -⟩⟩ :=
    captureTurn_eq_ok hwork
  · refine ⟨run, horganization ▸ hkeyed.get hmem, fun hcancelled => hopen ⟨rfl, .inl ?_⟩⟩
    exact .inr (.inr hcancelled)
  · have hmem : run ∈ j.runs := hruns ▸ List.mem_append_right _ (List.mem_singleton_self _)
    have horganization : run.organizationId = trace.command.organizationId := by rw [hnew]; rfl
    have hrow : j.runs.find? (fun r => r.organizationId = trace.command.organizationId ∧
        r.id = run.id) = some run := by
      rw [hruns]
      exact (hkeyed.runs.append hfresh).find?_eq (List.mem_append_right _ (List.mem_singleton_self _))
        (decide_eq_true ⟨horganization, rfl⟩) (fun r _ hr => (of_decide_eq_true hr).2)
    refine ⟨run, ?_, by rw [hnew]; rintro ⟨⟩⟩
    show j.get trace.command.organizationId run.id = .ok run
    unfold Journal.get
    rw [hrow]

theorem alive_advance (hkeyed : s.journal.Keyed) (halive : Alive s (.process call)) :
    Alive (advance engine call given s).2 (.process (advance engine call given s).1) := by
  have hopenly : call.phase.EndsOpenly := halive.2 call rfl
  have hruns : RunsChange call s (advance engine call given s).2 := runsChange_advance hopenly
  refine ⟨fun organizationId runId hwork => ?_, fun _ h => ?_⟩
  · obtain ⟨other, hphase, hpair⟩ := Option.map_eq_some_iff.mp hwork
    obtain ⟨rfl, rfl⟩ := Prod.mk.inj hpair
    by_cases hcapture : call.phase = .capture
    · obtain ⟨trace, phase⟩ := call
      cases hcapture
      rw [advance_command]
      exact alive_captured hkeyed hphase
    · have hstays : call.phase.runId? = some other :=
        staysOn_advance given s hcapture other hphase
      obtain ⟨run, hrun, hlive⟩ := halive.1 call.command.organizationId other
        (by simp only [EngineCall.atWork, hstays, Option.map_some])
      rw [advance_command]
      exact alive_runsChange hruns hrun hlive
  · cases h
    exact endsOpenly_advance given s

/-! ## One step of a cancellation -/

variable {organizationId runId : String}

theorem next_cancel (engine : RunEngine) (organizationId runId : String) (given : TurnGiven)
    (s : EngineStore) :
    ((system engine).next (.cancel organizationId runId) given s).1 = .cancelled ∧
      (((system engine).next (.cancel organizationId runId) given s).2 = s ∨
        ∃ run, s.journal.get organizationId runId = .ok run ∧ ¬ run.status.Final ∧
          ((system engine).next (.cancel organizationId runId) given s).2 =
            { s with journal := s.journal.updateRun run.id (Journal.stopped given.now) }) := by
  simp only [system]
  split
  · exact ⟨rfl, .inl rfl⟩
  · split
    · next j hwork =>
      obtain ⟨run, hrun, ⟨-, rfl⟩ | ⟨hopen, rfl⟩⟩ := cancelRun_eq_ok hwork
      · exact ⟨rfl, .inl rfl⟩
      · exact ⟨rfl, .inr ⟨run, hrun, hopen, rfl⟩⟩
    · exact ⟨rfl, .inl rfl⟩

theorem cancelledStay_stopped (hkeyed : s.journal.Keyed) {run : CognitiveRun} {now : Int}
    (hrun : s.journal.get organizationId runId = .ok run) (hopen : ¬ run.status.Final) :
    CancelledStay s { s with journal := s.journal.updateRun run.id (Journal.stopped now) } := by
  intro row hrow hstatus
  refine ⟨⟨row, Table.mem_update.mpr (.inr ⟨hrow, fun hid => hopen ?_⟩), rfl, rfl, hstatus⟩, rfl, rfl⟩
  obtain ⟨hmem, -, -⟩ := Journal.get_eq_ok hrun
  obtain rfl := hkeyed.runs.eq hrow hmem hid
  exact .inr (.inr hstatus)

theorem alive_stopped {run : CognitiveRun} {now : Int} {c : EngineCall} (hkeyed : s.journal.Keyed)
    (hrun : s.journal.get organizationId runId = .ok run) (halive : Alive s c)
    (hother : c.atWork ≠ some (organizationId, runId)) :
    Alive { s with journal := s.journal.updateRun run.id (Journal.stopped now) } c := by
  refine ⟨fun otherOrganization otherId hwork => ?_, halive.2⟩
  obtain ⟨row, hrow, hlive⟩ := halive.1 otherOrganization otherId hwork
  refine ⟨row, ?_, hlive⟩
  have hne : row.id ≠ run.id := by
    intro hid
    obtain ⟨hmem, hrowOrganization, hrowId⟩ := Journal.get_eq_ok hrow
    obtain ⟨hrunMem, hrunOrganization, hrunId⟩ := Journal.get_eq_ok hrun
    obtain rfl := hkeyed.runs.eq hmem hrunMem hid
    exact hother (by rw [hwork, ← hrowOrganization, ← hrowId, hrunOrganization, hrunId])
  have hget : (s.journal.updateRun run.id (Journal.stopped now)).get _ _ = _ :=
    Journal.get_update (f := Journal.stopped now) rfl (fun _ => ⟨rfl, rfl⟩) hrow
  rw [if_neg hne] at hget
  exact hget

/-! ## Runs -/

theorem alive_cancelled (s : EngineStore) : Alive s .cancelled := by
  refine ⟨fun _ _ hwork => ?_, fun _ hcall => ?_⟩
  · cases hwork
  · cases hcall

theorem alive_start (request : EngineRequest) (given : TurnGiven) (s : EngineStore) :
    Alive s ((system engine).start request given s) := by
  cases request with
  | process command =>
    refine ⟨fun _ _ hwork => ?_, fun call hcall => ?_⟩
    · cases hwork
    · cases hcall
      exact trivial
  | cancel organizationId runId =>
    refine ⟨fun _ _ hwork => ?_, fun call hcall => ?_⟩
    · cases hwork
    · cases hcall

variable {w : Interleaving.World EngineStore EngineCall}
  {e : Interleaving.Event EngineRequest TurnGiven}

theorem working_step (hw : Working w) (hok : Undisturbed w e) :
    Working ((system engine).step w e) ∧ CancelledStay w.store ((system engine).step w e).store := by
  cases e with
  | start request given =>
    refine ⟨⟨hw.keyed, fun c hc => ?_⟩, .refl _⟩
    rcases List.mem_append.mp hc with hc | hc
    · exact hw.alive c hc
    · rw [List.mem_singleton.mp hc]
      exact alive_start request given w.store
  | crash i =>
    exact ⟨⟨hw.keyed, fun c hc => hw.alive c (List.mem_of_mem_eraseIdx hc)⟩, .refl _⟩
  | advance i given =>
    simp only [Interleaving.System.step]
    split
    · next c hc =>
      have hmem : c ∈ w.calls := List.mem_of_getElem? hc
      cases c with
      | process call =>
        have hends : call.phase.EndsOpenly := (hw.alive _ hmem).2 call rfl
        have hruns : RunsChange call w.store (advance engine call given w.store).2 :=
          runsChange_advance hends
        refine ⟨⟨keyed_advance hw.keyed hruns invocationsChange_advance, fun d hd => ?_⟩, ?_⟩
        · rcases List.mem_or_eq_of_mem_set hd with hd | rfl
          · refine ⟨fun organizationId runId hwork => ?_, (hw.alive d hd).2⟩
            obtain ⟨run, hrun, hlive⟩ := (hw.alive d hd).1 organizationId runId hwork
            exact alive_runsChange hruns hrun hlive
          · exact alive_advance hw.keyed (hw.alive _ hmem)
        · refine cancelledStay_advance hw.keyed (fun runId hphase => ?_) hruns
            invocationsChange_advance executionsChange_advance
          exact (hw.alive _ hmem).1 call.command.organizationId runId
            (by simp only [EngineCall.atWork, hphase, Option.map_some])
      | cancel organizationId runId =>
        obtain ⟨hended, hsame | ⟨run, hrun, hopen, hstopped⟩⟩ :=
          next_cancel engine organizationId runId given w.store
        · rw [hended, hsame]
          refine ⟨⟨hw.keyed, fun d hd => ?_⟩, .refl _⟩
          rcases List.mem_or_eq_of_mem_set hd with hd | rfl
          · exact hw.alive d hd
          · exact alive_cancelled _
        · rw [hended, hstopped]
          refine ⟨⟨hw.keyed.updateRun (f := Journal.stopped given.now) (fun _ => rfl) run.id,
            fun d hd => ?_⟩,
            cancelledStay_stopped hw.keyed hrun hopen⟩
          rcases List.mem_or_eq_of_mem_set hd with hd | rfl
          · exact alive_stopped hw.keyed hrun (hw.alive d hd) (hok _ hc run hrun hopen d hd)
          · exact alive_cancelled _
      | cancelled =>
        refine ⟨⟨hw.keyed, fun d hd => ?_⟩, .refl _⟩
        rcases List.mem_or_eq_of_mem_set hd with hd | rfl
        · exact hw.alive d hd
        · exact alive_cancelled _
    · exact ⟨hw, .refl _⟩

theorem answersTruly_of_undisturbed (hw : Working w) (hok : Undisturbed w e) :
    AnswersTruly engine w e := by
  cases e with
  | start request given => exact trivial
  | crash i => exact trivial
  | advance i given =>
    intro call result hc hopen hreturned
    obtain ⟨trace, phase⟩ := call
    have hends : phase.EndsOpenly := (hw.alive _ (List.mem_of_getElem? hc)).2 _ rfl
    by_cases hexisting : ∃ runId, phase = .existing runId
    · obtain ⟨runId, rfl⟩ := hexisting
      revert hreturned
      simp only [advance]
      refine commits_induction (P := fun r => r.1.phase = .returned result → ∃ run,
        r.2.journal.get trace.command.organizationId result.runId = .ok run ∧
          run.status = result.status) (fun _ _ h => by cases h) ?_
      intro answer j hwork h
      cases h
      obtain ⟨run, hrun, hid, hstatus, rfl⟩ := existingResult_eq_ok hwork
      exact ⟨run, hid ▸ hrun, hstatus.symm⟩
    · by_cases hfinish : ∃ ending, phase = .finish ending
      · obtain ⟨ending, rfl⟩ := hfinish
        obtain ⟨-, hresult, hid⟩ := hends
        revert hreturned
        simp only [advance]
        refine commits_induction (P := fun r => r.1.phase = .returned result → ∃ run,
          r.2.journal.get trace.command.organizationId result.runId = .ok run ∧
            run.status = result.status) (fun _ _ h => by cases h) ?_
        intro _ j hwork h
        cases h
        rw [hid, hresult]
        obtain ⟨run, hrun, -, ⟨hfinal, hruns⟩ | ⟨-, hruns⟩⟩ := finishTurn_eq_ok hwork
        · refine ⟨run, ?_, hok _ hc run hrun hfinal⟩
          unfold Journal.get at hrun ⊢
          rw [hruns]
          exact hrun
        · refine ⟨_, Journal.get_update hruns (fun _ => ⟨rfl, rfl⟩) hrun, ?_⟩
          rw [if_pos rfl]
          rfl
      · have hcontinues : (advance engine ⟨trace, phase⟩ given w.store).1.phase.Continues :=
          continues_advance (not_exists.mp hexisting) (not_exists.mp hfinish) hopen
        rw [hreturned] at hcontinues
        exact hcontinues.elim

theorem working_run {events : List (Interleaving.Event EngineRequest TurnGiven)}
    (hw : Working w) (hok : (system engine).Along Undisturbed w events) :
    Working ((system engine).run w events) ∧
      CancelledStay w.store ((system engine).run w events).store := by
  refine Interleaving.System.run_induction
    (I := fun v => Working v ∧ CancelledStay w.store v.store) ?_ ⟨hw, .refl _⟩ hok
  intro v e hv hok
  obtain ⟨hworking, hstay⟩ := working_step hv.1 hok
  exact ⟨hworking, hv.2.trans hstay⟩

/-- In every run in which a cancellation finds no process call at work on the run that it ends, and
    no process call finishes a run that another call ended differently: a run that is cancelled stays
    cancelled, its invocations stay as they are and no handler is invoked for it, and a process call
    returns the status that its run has. -/
theorem cancellation_is_final (engine : RunEngine)
    (before after : List (Interleaving.Event EngineRequest TurnGiven))
    (h : (system engine).Along Undisturbed ⟨{}, []⟩ (before ++ after)) :
    CancelledStay ((system engine).run ⟨{}, []⟩ before).store
        ((system engine).run ⟨{}, []⟩ (before ++ after)).store ∧
      (system engine).Along (AnswersTruly engine) ⟨{}, []⟩ (before ++ after) := by
  have hinit : Working ⟨{}, []⟩ := ⟨Journal.keyed_empty, fun _ hnone => absurd hnone List.not_mem_nil⟩
  constructor
  · obtain ⟨hbefore, hafter⟩ := Interleaving.System.along_append.mp h
    rw [Interleaving.System.run_append]
    exact (working_run (working_run hinit hbefore).1 hafter).2
  · exact Interleaving.System.along_of_inv (fun _ _ hv hok => (working_step hv hok).1)
      (fun _ _ hv hok => answersTruly_of_undisturbed hv hok) hinit h

namespace Sample

/-- A turn crashes once it is bound, and its run is cancelled. -/
def abandoned : List (Interleaving.Event EngineRequest TurnGiven) :=
  [.crash 0, .start (.cancel "org-buyer" "crun_1") quiet, .advance 0 quiet]

/-- The turn is submitted again, and reads its run. -/
def resubmitted : List (Interleaving.Event EngineRequest TurnGiven) :=
  [.start (.process command) quiet, .advance 1 quiet, .advance 1 quiet]

/-- The run is cancelled while the turn is at its first model call. -/
def interrupted : List (Interleaving.Event EngineRequest TurnGiven) :=
  [.start (.cancel "org-buyer" "crun_1") quiet, .advance 1 quiet]

/-- The model proposes to read evidence, which is authorized and read. -/
def goesOn : List (Interleaving.Event EngineRequest TurnGiven) :=
  [decides (.proposeTools ⟨[readCall "call-1" "evidence-1"], by decide⟩), quiet, Sample.given "2", quiet].map
    (.advance 0)

/-- The model fails, and the turn finishes. -/
def givesUp : List (Interleaving.Event EngineRequest TurnGiven) :=
  [.advance 0 quiet, .advance 0 quiet]

end Sample

theorem Sample.run_bound : ∃ manifest,
    (system Sample.engine).run ⟨{}, []⟩ (.start (.process Sample.command) quiet ::
        [Sample.given "1", Sample.given "2"].map (.advance 0)) =
      ⟨boundStore Sample.engine Sample.command (Sample.given "1") manifest,
        [.process ⟨{ command := Sample.command }, .decide (boundTurn (Sample.given "1") manifest)⟩]⟩ ∧
      manifest = ((Sample.engine.prepare Sample.command).toOption.get (by decide +kernel)) := by
  have hprepared := Raising.eq_ok_get (x := Sample.engine.prepare Sample.command)
    (by decide +kernel)
  refine ⟨_, ?_, rfl⟩
  rw [run_process, processes_bound hprepared (Sample.given "1") (Sample.given "2") rfl rfl]

theorem cancellation_is_final_sample :
    (∃ run ∈ ((system Sample.engine).run ⟨{}, []⟩ ((.start (.process Sample.command) quiet ::
        [Sample.given "1", Sample.given "2"].map (.advance 0)) ++ Sample.abandoned)).store.journal.runs,
      run.status = .cancelled) ∧
    CancelledStay ((system Sample.engine).run ⟨{}, []⟩ ((.start (.process Sample.command) quiet ::
        [Sample.given "1", Sample.given "2"].map (.advance 0)) ++ Sample.abandoned)).store
      ((system Sample.engine).run ⟨{}, []⟩ (((.start (.process Sample.command) quiet ::
        [Sample.given "1", Sample.given "2"].map (.advance 0)) ++ Sample.abandoned) ++
          Sample.resubmitted)).store := by
  obtain ⟨manifest, hbound, rfl⟩ := Sample.run_bound
  constructor
  · rw [Interleaving.System.run_append, hbound]
    decide +kernel
  · refine (cancellation_is_final Sample.engine _ _ ?_).1
    rw [List.append_assoc]
    refine Interleaving.System.along_append.mpr ⟨by decide +kernel, ?_⟩
    rw [hbound]
    decide +kernel

/-- A turn whose run is cancelled at its first model call goes on to invoke a handler for it, and
    where the model fails it returns that the run failed. -/
theorem cancelled_turn_goes_on :
    ¬ CancelledStay ((system Sample.engine).run ⟨{}, []⟩ ((.start (.process Sample.command) quiet ::
        [Sample.given "1", Sample.given "2"].map (.advance 0)) ++ Sample.interrupted)).store
      ((system Sample.engine).run ⟨{}, []⟩ (((.start (.process Sample.command) quiet ::
        [Sample.given "1", Sample.given "2"].map (.advance 0)) ++ Sample.interrupted) ++
          Sample.goesOn)).store ∧
    ¬ (system Sample.engine).Along (AnswersTruly Sample.engine) ⟨{}, []⟩
      (((.start (.process Sample.command) quiet ::
        [Sample.given "1", Sample.given "2"].map (.advance 0)) ++ Sample.interrupted) ++
          Sample.givesUp) := by
  obtain ⟨manifest, hbound, rfl⟩ := Sample.run_bound
  constructor
  · intro h
    rw [Interleaving.System.run_append, Interleaving.System.run_append, hbound] at h
    obtain ⟨run, hrun, hstatus, hid⟩ : ∃ run ∈ ((system Sample.engine).run ⟨boundStore Sample.engine
        Sample.command (Sample.given "1") ((Sample.engine.prepare Sample.command).toOption.get
          (by decide +kernel)), [.process ⟨{ command := Sample.command }, .decide (boundTurn
            (Sample.given "1") ((Sample.engine.prepare Sample.command).toOption.get
              (by decide +kernel)))⟩]⟩ Sample.interrupted).store.journal.runs,
        run.status = .cancelled ∧ run.id = "crun_1" := by
      decide +kernel
    have hexecutions := (h run hrun hstatus).executions
    rw [hid] at hexecutions
    revert hexecutions
    decide +kernel
  · intro h
    obtain ⟨-, hgivesUp⟩ := Interleaving.System.along_append.mp h
    rw [Interleaving.System.run_append, hbound] at hgivesUp
    obtain ⟨-, hanswers, -⟩ := hgivesUp
    obtain ⟨run, hrun, hstatus⟩ := hanswers _ _ rfl (fun _ h => by cases h) rfl
    revert run
    decide +kernel

end CognitiveEngine

end SiraApi
