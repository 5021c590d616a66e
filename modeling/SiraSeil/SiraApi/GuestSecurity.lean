-- SUMMARY: The request limiter: its clean-up changes no decision, and every window allows its limit.
import SiraSeil.Domain.Values
import SiraSeil.Library.Dict

/-!
# Guest security

The limiter of `guest_security.py` counts the allowed calls of a subject and a scope in a window of
time. One map holds the counts of all scopes, whose windows differ in length, and every minute the
limiter drops the windows that began a day ago or earlier.
-/

namespace SiraApi

/-- `str.endswith` -/
def endsWith (s suffix : String) : Bool :=
  suffix.toList.reverse.isPrefixOf s.toList.reverse

/-- `_window_for_scope` -/
def windowForScope (scope : String) : Int :=
  if endsWith scope ":day" then 86400
  else if endsWith scope ":hour" || scope = "guest-bootstrap" then 3600
  else 60

/-- The digest of a subject, a scope, and a window -/
abbrev BucketKey := String × String × Int

structure RateLimitDecision where
  allowed : Bool
  limit : Int
  remaining : Int
  resetAt : Int
  deriving DecidableEq, Repr

/-- The counts, and when they were last cleaned up -/
structure FixedWindowLimiter where
  buckets : Dict BucketKey Int
  lastCleanup : Int

/-- A limiter when the process starts -/
def FixedWindowLimiter.start : FixedWindowLimiter := ⟨.empty, 0⟩

/-- The arguments of a call of `check`, and `int(time.time())` when it comes -/
structure CheckCall where
  now : Int
  subject : String
  scope : String
  limit : Int
  windowSeconds : Int

def CheckCall.window (c : CheckCall) : Int :=
  c.now / c.windowSeconds

section Limiter

-- `hashlib.sha256(subject.encode()).hexdigest()`
variable (digest : String → String)

def CheckCall.key (c : CheckCall) : BucketKey :=
  (digest c.subject, c.scope, c.window)

/-- Whether a clean-up at `now` keeps a bucket -/
def kept (now : Int) (item : BucketKey) : Bool :=
  item.2.2 * windowForScope item.2.1 > now - 86400

/-- The clean-up, at most once in a minute -/
def FixedWindowLimiter.cleanUp (l : FixedWindowLimiter) (now : Int) : FixedWindowLimiter :=
  if now - l.lastCleanup ≥ 60 then
    ⟨.ofList (l.buckets.items.filter (fun p => kept now p.1)), now⟩
  else l

/-- The body of `check` after the clean-up -/
def FixedWindowLimiter.count (l : FixedWindowLimiter) (c : CheckCall) :
    RateLimitDecision × FixedWindowLimiter :=
  let count := (l.buckets.get? (c.key digest)).getD 0
  let resetAt := (c.window + 1) * c.windowSeconds
  if count ≥ c.limit then (⟨false, c.limit, 0, resetAt⟩, l)
  else
    (⟨true, c.limit, max 0 (c.limit - (count + 1)), resetAt⟩,
      { l with buckets := l.buckets.set (c.key digest) (count + 1) })

/-- `check` -/
def FixedWindowLimiter.check (l : FixedWindowLimiter) (c : CheckCall) :
    RateLimitDecision × FixedWindowLimiter :=
  (l.cleanUp c.now).count digest c

end Limiter

/-- The decisions of the calls that come one after the other, each beside its call -/
def decisions (step : FixedWindowLimiter → CheckCall → RateLimitDecision × FixedWindowLimiter) :
    FixedWindowLimiter → List CheckCall → List (CheckCall × RateLimitDecision)
  | _, [] => []
  | l, c :: calls => (c, (step l c).1) :: decisions step (step l c).2 calls

variable {full l : FixedWindowLimiter} {calls : List CheckCall} {key : BucketKey} {c : CheckCall}

theorem mem_of_mem_decisions
    {step : FixedWindowLimiter → CheckCall → RateLimitDecision × FixedWindowLimiter}
    {p : CheckCall × RateLimitDecision} (h : p ∈ decisions step l calls) : p.1 ∈ calls := by
  induction calls generalizing l with
  | nil => cases h
  | cons c calls ih =>
    rcases List.mem_cons.mp h with rfl | h
    · exact List.mem_cons_self
    · exact List.mem_cons_of_mem c (ih h)

/-! ## The checks of a request -/

/-! ## The clean-up -/

variable {digest : String → String}

theorem windowForScope_pos (scope : String) :
    0 < windowForScope scope ∧ windowForScope scope ≤ 86400 := by
  unfold windowForScope
  split
  · omega
  · split <;> omega

/-- The limiters agree on every bucket that a clean-up at `now` keeps. -/
def Agrees (now : Int) (l full : FixedWindowLimiter) : Prop :=
  ∀ key, kept now key = true → l.buckets.get? key = full.buckets.get? key

theorem Agrees.mono {now later : Int} (h : Agrees now l full)
    (hlater : now ≤ later) : Agrees later l full := by
  intro key hkey
  apply h
  unfold kept at hkey ⊢
  rw [decide_eq_true_eq] at hkey ⊢
  omega

theorem get?_cleanUp {now : Int}
    (hkey : kept now key = true) : (l.cleanUp now).buckets.get? key = l.buckets.get? key := by
  unfold FixedWindowLimiter.cleanUp
  split
  · -- a comprehension over the items of a dictionary writes every key once
    have hitems : Dict.ofList l.buckets.items = l.buckets := by
      have hwritten := Dict.items_ofList_of_nodup l.buckets.nodup
      cases hbuckets : Dict.ofList l.buckets.items
      simp_all
    simp only [Dict.get?_ofList_filter (kept now) hkey, hitems]
  · rfl

theorem kept_key (h : c.windowSeconds = windowForScope c.scope) :
    kept c.now (c.key digest) = true := by
  obtain ⟨hpos, hday⟩ := windowForScope_pos c.scope
  have hwindow : c.now - windowForScope c.scope < c.now / windowForScope c.scope *
      windowForScope c.scope := by
    have hrest := Int.emod_lt_of_pos c.now hpos
    have hsum := Int.mul_ediv_add_emod c.now (windowForScope c.scope)
    rw [Int.mul_comm] at hsum
    omega
  unfold kept CheckCall.key CheckCall.window
  rw [h, decide_eq_true_eq]
  simp only
  omega

theorem Agrees.check (h : Agrees c.now l full)
    (hwindow : c.windowSeconds = windowForScope c.scope) :
    (l.check digest c).1 = (full.count digest c).1 ∧
      Agrees c.now (l.check digest c).2 (full.count digest c).2 := by
  have hclean : Agrees c.now (l.cleanUp c.now) full :=
    fun key hkey => (get?_cleanUp hkey).trans (h key hkey)
  have hcount := hclean (c.key digest) (kept_key hwindow)
  unfold FixedWindowLimiter.check FixedWindowLimiter.count
  rw [hcount]
  simp only
  split
  · exact ⟨rfl, hclean⟩
  · refine ⟨rfl, fun key hkey => ?_⟩
    simp only [Dict.get?_set]
    split
    · rfl
    · exact hclean key hkey

theorem decisions_check (hordered : calls.Pairwise (fun c d => c.now ≤ d.now))
    (hwindows : ∀ c ∈ calls, c.windowSeconds = windowForScope c.scope)
    (h : ∀ c ∈ calls, Agrees c.now l full) :
    decisions (·.check digest) l calls = decisions (·.count digest) full calls := by
  induction calls generalizing l full with
  | nil => rfl
  | cons c calls ih =>
    obtain ⟨hlater, hordered⟩ := List.pairwise_cons.mp hordered
    have hboth : (l.check digest c).1 = (full.count digest c).1 ∧
        Agrees c.now (l.check digest c).2 (full.count digest c).2 :=
      (h c List.mem_cons_self).check (hwindows c List.mem_cons_self)
    obtain ⟨hdecision, hagrees⟩ := hboth
    simp only [decisions, hdecision]
    congr 1
    apply ih hordered (fun d hd => hwindows d (List.mem_cons_of_mem c hd))
    exact fun d hd => hagrees.mono (hlater d hd)

/-! ## The limits -/

/-- Whether a call is one of a subject and a scope in a window -/
def CheckCall.within (subject scope : String) (window : Int) (c : CheckCall) : Bool :=
  c.subject = subject ∧ c.scope = scope ∧ c.window = window

/-- The count in a bucket -/
def FixedWindowLimiter.counted (l : FixedWindowLimiter) (key : BucketKey) : Int :=
  (l.buckets.get? key).getD 0

theorem allowed_count :
    (l.count digest c).1.allowed = decide (l.counted (c.key digest) < c.limit) := by
  unfold FixedWindowLimiter.count FixedWindowLimiter.counted
  simp only
  split
  · next hfull => exact (decide_eq_false (not_lt.mpr hfull)).symm
  · next hfree => exact (decide_eq_true (not_le.mp hfree)).symm

theorem counted_count :
    (l.count digest c).2.counted key =
      if c.key digest = key ∧ (l.count digest c).1.allowed then l.counted key + 1
      else l.counted key := by
  rw [allowed_count]
  unfold FixedWindowLimiter.count FixedWindowLimiter.counted
  simp only
  by_cases hfull : (l.buckets.get? (c.key digest)).getD 0 ≥ c.limit
  · simp [hfull, not_lt.mpr hfull]
  · rw [if_neg hfull]
    simp only [Dict.get?_set]
    by_cases hkey : c.key digest = key
    · subst hkey
      simp [not_le.mp hfull]
    · simp [hkey, Ne.symm hkey]

theorem countP_allowed {limit : Int} (hlimit : ∀ c ∈ calls, c.key digest = key → c.limit = limit)
    (hcount : l.counted key ≤ limit) :
    ((decisions (·.count digest) l calls).countP
        (fun p => p.1.key digest = key ∧ p.2.allowed) : Int) =
      min (limit - l.counted key) (calls.countP (fun c => c.key digest = key)) := by
  induction calls generalizing l with
  | nil =>
    simp only [decisions, List.countP_nil]
    omega
  | cons c calls ih =>
    have hstep := @counted_count l key c digest
    rw [allowed_count] at hstep
    have hlater := ih (l := (l.count digest c).2)
      (fun d hd => hlimit d (List.mem_cons_of_mem c hd))
    simp only [decisions, List.countP_cons, allowed_count, Nat.cast_add]
    by_cases hkey : c.key digest = key
    · have hown := hlimit c List.mem_cons_self hkey
      simp only [hkey, hown, true_and, decide_eq_true_eq] at hstep ⊢
      split at hstep
      · next hfree =>
        rw [hlater (by omega), hstep]
        simp [hfree]
        omega
      · next hfull =>
        -- the window is full, and stays full
        rw [hlater (by omega), hstep]
        simp [hfull]
        omega
    · simp only [hkey, false_and, if_false] at hstep
      rw [hlater (by omega), hstep]
      simp [hkey]

/-- The clean-up changes no decision. If a subject's digest is no other's, then in every window
    just as many of its calls pass as the limit allows. -/
theorem limiter_exact {calls : List CheckCall} (hordered : calls.Pairwise (fun c d => c.now ≤ d.now))
    (hwindows : ∀ c ∈ calls, c.windowSeconds = windowForScope c.scope) :
    decisions (·.check digest) .start calls = decisions (·.count digest) .start calls ∧
      ∀ (subject scope : String) (window limit : Int), 0 ≤ limit →
        (∀ c ∈ calls, c.within subject scope window → c.limit = limit) →
        (∀ c ∈ calls, digest c.subject = digest subject → c.subject = subject) →
        ((decisions (·.check digest) .start calls).countP
            (fun p => p.1.within subject scope window && p.2.allowed) : Int) =
          min limit (calls.countP (·.within subject scope window)) := by
  have hsame : decisions (·.check digest) .start calls = decisions (·.count digest) .start calls :=
    decisions_check hordered hwindows (fun _ _ _ _ => rfl)
  refine ⟨hsame, ?_⟩
  intro subject scope window limit hpositive hlimit hapart
  have hkey : ∀ c ∈ calls, c.key digest = (digest subject, scope, window) ↔
      c.within subject scope window = true := by
    intro c hc
    unfold CheckCall.key CheckCall.within
    simp only [Prod.mk.injEq, decide_eq_true_eq]
    constructor
    · rintro ⟨hdigest, hscope, hwindow⟩
      exact ⟨hapart c hc hdigest, hscope, hwindow⟩
    · rintro ⟨rfl, hscope, hwindow⟩
      exact ⟨rfl, hscope, hwindow⟩
  have hpassed : (decisions (·.count digest) .start calls).countP
      (fun p => p.1.within subject scope window && p.2.allowed) =
        (decisions (·.count digest) .start calls).countP
          (fun p => p.1.key digest = (digest subject, scope, window) ∧ p.2.allowed) := by
    apply List.countP_congr
    intro p hp
    simp [hkey p.1 (mem_of_mem_decisions hp)]
  have hcalls : calls.countP (·.within subject scope window) =
      calls.countP (fun c => c.key digest = (digest subject, scope, window)) := by
    apply List.countP_congr
    intro c hc
    simp [hkey c hc]
  have hstart : FixedWindowLimiter.start.counted (digest subject, scope, window) = 0 := rfl
  rw [hsame, hpassed, hcalls, countP_allowed
    (fun c hc hmatch => hlimit c hc ((hkey c hc).mp hmatch)) (hstart ▸ hpositive), hstart, sub_zero]

/-- Three calls in one minute with a limit of two, and one a day later: the clean-up then drops the
    first window. -/
theorem limiter_exact_sample :
    let call : Int → CheckCall := fun now => ⟨now, "guest:1", "chat:minute", 2, 60⟩
    let calls := [call 120, call 121, call 122, call 86640]
    (calls.Pairwise (fun c d => c.now ≤ d.now) ∧
        ∀ c ∈ calls, c.windowSeconds = windowForScope c.scope) ∧
      decisions (·.check id) .start calls = decisions (·.count id) .start calls ∧
      ((decisions (·.check id) .start calls).countP
          (fun p => p.1.within "guest:1" "chat:minute" 2 && p.2.allowed) : Int) = 2 := by
  intro call calls
  have hordered : calls.Pairwise (fun c d => c.now ≤ d.now) := by decide
  have hwindows : ∀ c ∈ calls, c.windowSeconds = windowForScope c.scope := by decide
  obtain ⟨hsame, hlimits⟩ := @limiter_exact id calls hordered hwindows
  refine ⟨⟨hordered, hwindows⟩, hsame, ?_⟩
  have hlimit : ∀ c ∈ calls, c.within "guest:1" "chat:minute" 2 → c.limit = 2 := by decide
  have hapart : ∀ c ∈ calls, id c.subject = id "guest:1" → c.subject = "guest:1" := by decide
  have hcalls : calls.countP (·.within "guest:1" "chat:minute" 2) = 3 := by decide
  rw [hlimits "guest:1" "chat:minute" 2 2 (by decide) hlimit hapart, hcalls]
  decide

end SiraApi
