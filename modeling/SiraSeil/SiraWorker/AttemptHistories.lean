-- SUMMARY: What decisions keep and how replacements follow each other, over all runs of the transactions.
import SiraSeil.SiraWorker.GenerationFencing

/-!
# Histories of qualification attempts

A run only adds to the tables of the attempts. What a decision recorded stays what it was, and the
attempts of a mission stand in lines of replacements.
-/

namespace SiraWorker

open Domain Persistence

/-! ## What decisions rest on -/

/-- Later tables have every decision as it was but for its approval and whether it is current, with
    the dependencies that were recorded for it, whose digest is its input digest. -/
structure KeepsEvidence (rt : Runtime) (k k' : Kernel) : Prop where
  decisions : ∀ d ∈ k.decisions, ∃ d' ∈ k'.decisions, Kernel.SameDecision d d' ∧
    (k'.recordedBy d').map (·.snapshot) = (k.recordedBy d).map (·.snapshot) ∧
    snapshotDigest rt ((k'.recordedBy d').map (·.snapshot)) = .ok d'.inputDigest

section Evidence

variable {rt : Runtime} {k k' : Kernel} {d d' : QualificationDecision}

theorem digest_of_recorded (hsound : k.Sound rt) (hd : d ∈ k.decisions) :
    snapshotDigest rt ((k.recordedBy d).map (·.snapshot)) = .ok d.inputDigest := by
  obtain ⟨a, ha, -, -, -, hinput, hrecorded⟩ := hsound.decided d hd
  rcases hsound.snapshotted a ha with ⟨-, hnone, -⟩ | ⟨-, -, ⟨digest, hdigest, hstored⟩, -⟩
  · rw [hnone] at hinput
    cases hinput
  · rw [hrecorded, hdigest, Option.some.inj (hstored.symm.trans hinput)]

/-- The attempt of a decision has ended, so its stored snapshot is the same in both tables. -/
theorem recorded_of_advances (hsound : k.Sound rt) (hsound' : k'.Sound rt)
    (hadvances : k.Advances k') (hd : d ∈ k.decisions) (hd' : d' ∈ k'.decisions)
    (hsame : Kernel.SameDecision d d') :
    (k'.recordedBy d').map (·.snapshot) = (k.recordedBy d).map (·.snapshot) := by
  obtain ⟨a, ha, hof, -, hcompleted, hinput, hrecorded⟩ := hsound.decided d hd
  obtain ⟨b, hb, hof', -, -, -, hrecorded'⟩ := hsound'.decided d' hd'
  obtain ⟨a', ha', -, -, hended, hstored⟩ := hadvances.attempts a ha
  obtain rfl := hended (.inl hcompleted)
  have hdependencies : k.dependenciesOf a' ≠ [] := by
    rcases hsound.snapshotted a' ha with ⟨-, hnone, -⟩ | ⟨hne, -⟩
    · rw [hnone] at hinput
      cases hinput
    · exact hne
  have hattempt := congrArg QualificationDecision.attemptId hsame.eq
  obtain rfl := hsound'.attempts.eq ha' hb (hof.2.symm.trans (hattempt.symm.trans hof'.2))
  rw [hrecorded', hrecorded, (hstored hdependencies).1]

end Evidence

theorem decisions_keep_evidence (rt : Runtime) (ts later : List Submitted) :
    KeepsEvidence rt (tablesAfter rt ts).kernel (tablesAfter rt (ts ++ later)).kernel where
  decisions := by
    intro d hd
    have hsound := sound_tablesAfter rt ts
    have hsound' := sound_tablesAfter rt (ts ++ later)
    have hadvances := advances_tablesAfter rt ts later
    obtain ⟨d', hd', hsame⟩ := hadvances.decisions d hd
    exact ⟨d', hd', hsame, recorded_of_advances hsound hsound' hadvances hd hd' hsame,
      digest_of_recorded hsound' hd'⟩

/-! ## Lines of replacements -/

/-- So many replacements lead from one attempt to another, all of one mission. -/
inductive Replaces (k : Kernel) (root : QualificationAttempt) : QualificationAttempt → Nat → Prop
  | first (hnone : root.predecessorAttemptId = none) : Replaces k root root 0
  | next {p a : QualificationAttempt} {n : Nat} (hp : p ∈ k.attempts) (hbefore : Replaces k root p n)
      (htenant : p.organizationId = a.organizationId) (hmission : p.missionId = a.missionId)
      (hof : a.predecessorAttemptId = some p.id) : Replaces k root a (n + 1)

section Lines

variable {rt : Runtime} {k : Kernel} {root a b : QualificationAttempt} {n : Nat}

/-- By induction on how often an attempt was replaced: its predecessor was so once less. -/
theorem exists_replaces (hsound : k.Sound rt) (ha : a ∈ k.attempts) (hdepth : a.replacementDepth = n) :
    ∃ root ∈ k.attempts, root.organizationId = a.organizationId ∧ root.missionId = a.missionId ∧
      Replaces k root a n := by
  induction n generalizing a with
  | zero =>
    rcases hsound.descends a ha with ⟨hnone, -⟩ | ⟨p, -, -, -, -, hlater, -⟩
    · exact ⟨a, ha, rfl, rfl, .first hnone⟩
    · omega
  | succ n ih =>
    rcases hsound.descends a ha with ⟨-, hfirst⟩ | ⟨p, hp, htenant, hmission, hof, hlater, -⟩
    · omega
    · obtain ⟨root, hroot, hrootTenant, hrootMission, hline⟩ := ih hp (by omega)
      exact ⟨root, hroot, hrootTenant.trans htenant, hrootMission.trans hmission,
        .next hp hline htenant hmission hof⟩

/-- An attempt has one replacement, so a line does not branch. -/
theorem eq_of_replaces (hsound : k.Sound rt) (ha : a ∈ k.attempts) (hb : b ∈ k.attempts)
    (hline : Replaces k root a n) (hline' : Replaces k root b n) : a = b := by
  induction n generalizing a b with
  | zero =>
    cases hline
    cases hline'
    rfl
  | succ n ih =>
    cases hline with
    | next hp hbefore htenant _ hof =>
      cases hline' with
      | next hp' hbefore' htenant' _ hof' =>
        obtain rfl := ih hp hp' hbefore hbefore'
        refine hsound.successors.eq (List.mem_filter.mpr ⟨ha, ?_⟩) (List.mem_filter.mpr ⟨hb, ?_⟩) ?_
        · rw [hof]
          rfl
        · rw [hof']
          rfl
        · rw [hof, hof', ← htenant, ← htenant']

end Lines

/-- In every table that transactions leave, an attempt stands in the line of a first attempt of its
    mission, after as many replacements as it counts, at most three, and no line branches. -/
theorem replacements_form_lines (rt : Runtime) (ts : List Submitted) :
    (∀ a ∈ (tablesAfter rt ts).attempts, a.replacementDepth ≤ 3 ∧
      ∃ root ∈ (tablesAfter rt ts).attempts, root.organizationId = a.organizationId ∧
        root.missionId = a.missionId ∧
        Replaces (tablesAfter rt ts).kernel root a a.replacementDepth) ∧
    ∀ root, ∀ a ∈ (tablesAfter rt ts).attempts, ∀ b ∈ (tablesAfter rt ts).attempts, ∀ n,
      Replaces (tablesAfter rt ts).kernel root a n → Replaces (tablesAfter rt ts).kernel root b n →
        a = b := by
  have hsound := sound_tablesAfter rt ts
  constructor
  · intro a ha
    exact ⟨depth_le rt hsound ha, exists_replaces hsound ha rfl⟩
  · intro root a ha b hb n hline hline'
    exact eq_of_replaces hsound ha hb hline hline'

end SiraWorker
