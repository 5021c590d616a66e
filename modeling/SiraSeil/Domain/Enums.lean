-- SUMMARY: The enumerations the Decision Graph reads, with the text each member is serialized as.
import Mathlib.Data.Rat.Defs

/-!
# Shared enumerations

The members of `domain/enums.py` and of the enumerations of
`decision_engine/graph_v1_models.py`. Every member carries its string value,
because values are hashed, sorted and compared as strings.
-/

namespace Domain

inductive CandidateStatus
  | eligible | eligibleWithException | conditional | siraIneligible | seilPass | unavailable
  | staleEvidence | insufficientEvidence | conflictingEvidence | authorityRequired | advisoryOnly
  deriving DecidableEq, Repr

namespace CandidateStatus

def value : CandidateStatus → String
  | eligible => "ELIGIBLE"
  | eligibleWithException => "ELIGIBLE_WITH_EXCEPTION"
  | conditional => "CONDITIONAL"
  | siraIneligible => "SIRA_INELIGIBLE"
  | seilPass => "SEIL_PASS"
  | unavailable => "UNAVAILABLE"
  | staleEvidence => "STALE_EVIDENCE"
  | insufficientEvidence => "INSUFFICIENT_EVIDENCE"
  | conflictingEvidence => "CONFLICTING_EVIDENCE"
  | authorityRequired => "AUTHORITY_REQUIRED"
  | advisoryOnly => "ADVISORY_ONLY"

/-- `_STATUS_RANK`: the position of a status in `_STATUS_PRECEDENCE`. -/
def rank : CandidateStatus → Nat
  | unavailable => 0
  | conflictingEvidence => 1
  | staleEvidence => 2
  | insufficientEvidence => 3
  | siraIneligible => 4
  | seilPass => 5
  | authorityRequired => 6
  | advisoryOnly => 7
  | conditional => 8
  | eligibleWithException => 9
  | eligible => 10

/-- The statuses that enter the ranking. -/
def rankable : CandidateStatus → Bool
  | eligible | eligibleWithException => true
  | _ => false

theorem rankable_iff_rank (s : CandidateStatus) : s.rankable = true ↔ 9 ≤ s.rank := by
  cases s <;> simp [rankable, rank]

end CandidateStatus

inductive RankStability
  | stable | unstable | undetermined
  deriving DecidableEq, Repr

def RankStability.value : RankStability → String
  | stable => "STABLE"
  | unstable => "UNSTABLE"
  | undetermined => "UNDETERMINED"

inductive PackAuthority
  | sellerSealed | platformCompiled | externalUnsealed
  deriving DecidableEq, Repr

namespace PackAuthority

def value : PackAuthority → String
  | sellerSealed => "SELLER_SEALED"
  | platformCompiled => "PLATFORM_COMPILED"
  | externalUnsealed => "EXTERNAL_UNSEALED"

/-- `authority_rank`: larger is weaker. -/
def rank : PackAuthority → Nat
  | sellerSealed => 0
  | platformCompiled => 1
  | externalUnsealed => 2

end PackAuthority

inductive SolutionAction
  | reuseExisting | configureExisting | noAction | buy | renew | resize | replace | consolidate
  | cancel
  deriving DecidableEq, Repr

namespace SolutionAction

def value : SolutionAction → String
  | reuseExisting => "REUSE_EXISTING"
  | configureExisting => "CONFIGURE_EXISTING"
  | noAction => "NO_ACTION"
  | buy => "BUY"
  | renew => "RENEW"
  | resize => "RESIZE"
  | replace => "REPLACE"
  | consolidate => "CONSOLIDATE"
  | cancel => "CANCEL"

/-- `action.value.lower()` -/
def lower : SolutionAction → String
  | reuseExisting => "reuse_existing"
  | configureExisting => "configure_existing"
  | noAction => "no_action"
  | buy => "buy"
  | renew => "renew"
  | resize => "resize"
  | replace => "replace"
  | consolidate => "consolidate"
  | cancel => "cancel"

theorem value_injective {a b : SolutionAction} (h : a.value = b.value) : a = b := by
  cases a <;> cases b <;> first | rfl | (revert h; decide)

end SolutionAction

inductive StackRisk
  | low | medium | high | critical
  deriving DecidableEq, Repr

namespace StackRisk

def value : StackRisk → String
  | low => "LOW"
  | medium => "MEDIUM"
  | high => "HIGH"
  | critical => "CRITICAL"

def rank : StackRisk → Nat
  | low => 0
  | medium => 1
  | high => 2
  | critical => 3

/-- The inverse of `rank` on its range. -/
def byRank : Nat → StackRisk
  | 0 => low
  | 1 => medium
  | 2 => high
  | _ => critical

theorem rank_byRank (r : StackRisk) : byRank r.rank = r := by
  cases r <;> rfl

end StackRisk

inductive ProductInstanceState
  | proposed | contracted | provisioned | deploying | active | degraded | retiring | cancelled
  deriving DecidableEq, Repr

def ProductInstanceState.value : ProductInstanceState → String
  | proposed => "proposed"
  | contracted => "contracted"
  | provisioned => "provisioned"
  | deploying => "deploying"
  | active => "active"
  | degraded => "degraded"
  | retiring => "retiring"
  | cancelled => "cancelled"

inductive StackPatchStatus
  | draft | validated | awaitingApproval | approved | applying | applied | conflict | failed
  | compensatingPatch
  deriving DecidableEq, Repr

def StackPatchStatus.value : StackPatchStatus → String
  | draft => "DRAFT"
  | validated => "VALIDATED"
  | awaitingApproval => "AWAITING_APPROVAL"
  | approved => "APPROVED"
  | applying => "APPLYING"
  | applied => "APPLIED"
  | conflict => "CONFLICT"
  | failed => "FAILED"
  | compensatingPatch => "COMPENSATING_PATCH"

inductive TruthValue
  | true | false | unknown | conflict | unresolved
  deriving DecidableEq, Repr

def TruthValue.value : TruthValue → String
  | .true => "TRUE"
  | .false => "FALSE"
  | .unknown => "UNKNOWN"
  | .conflict => "CONFLICT"
  | .unresolved => "UNRESOLVED"

inductive EvidenceState
  | acceptable | unknown | stale | conflict
  deriving DecidableEq, Repr

def EvidenceState.value : EvidenceState → String
  | acceptable => "ACCEPTABLE"
  | unknown => "UNKNOWN"
  | stale => "STALE"
  | conflict => "CONFLICT"

inductive GateMode
  | requireMatch | blockOnMatch
  deriving DecidableEq, Repr

def GateMode.value : GateMode → String
  | requireMatch => "REQUIRE_MATCH"
  | blockOnMatch => "BLOCK_ON_MATCH"

inductive PlanLifecycle
  | candidate | resolutionPending | executable | blocked
  deriving DecidableEq, Repr

def PlanLifecycle.value : PlanLifecycle → String
  | candidate => "CANDIDATE"
  | resolutionPending => "RESOLUTION_PENDING"
  | executable => "EXECUTABLE"
  | blocked => "BLOCKED"

inductive NormalizationKind
  | booleanEquals | setContainsAll | lowerIsBetter | outcomeRate
  deriving DecidableEq, Repr

def NormalizationKind.value : NormalizationKind → String
  | booleanEquals => "BOOLEAN_EQUALS"
  | setContainsAll => "SET_CONTAINS_ALL"
  | lowerIsBetter => "LOWER_IS_BETTER"
  | outcomeRate => "OUTCOME_RATE"

inductive CounterfactualOutcome
  | winnerChanged | noSmallCounterfactualFound
  deriving DecidableEq, Repr

def CounterfactualOutcome.value : CounterfactualOutcome → String
  | winnerChanged => "WINNER_CHANGED"
  | noSmallCounterfactualFound => "NO_SMALL_COUNTERFACTUAL_FOUND"

end Domain
