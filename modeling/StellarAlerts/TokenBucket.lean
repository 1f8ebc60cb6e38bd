import Mathlib.Tactic.Linarith
import Mathlib.Tactic.Ring
import Mathlib.Tactic.Positivity
import StellarAlerts.Histories

/-!
The token buckets of the provider budgets. What is granted between two points of a run
is bounded by the burst and by how far the latest reading moved on (`granted_le`).
-/
namespace StellarAlerts.TokenBucket
open Histories

structure ProviderBudgetConfig where
  capacity : ℚ≥0
  refillRatePerSec : ℚ≥0
deriving DecidableEq

/-- What changes in a `TokenBucketLimiter`; the clock is read in milliseconds. -/
structure Bucket where
  tokens : ℚ
  lastRefill : ℚ
deriving DecidableEq

/-- A call of `consume` that sleeps. -/
structure Waiting where
  tokens : ℚ≥0
  maxWaitMs : ℚ
  start : ℚ
deriving DecidableEq

structure State where
  bucket : Bucket
  /-- The calls of `consume` so far, by number, that still wait. -/
  calls : Nat
  waiting : Nat → Option Waiting

/-- The calls, with the readings of the clock they would take one after another. -/
inductive Call where
  | tryConsume (tokens : ℚ≥0) (now : ℚ)
  | getAvailableTokens (now : ℚ)
  | consume (tokens : ℚ≥0) (maxWaitMs now start check left : ℚ)
  | wake (call : Nat) (now check left : ℚ)

inductive Answer where
  | granted (tokens : ℚ≥0)
  | refused
  | sleeps (waitTime : ℚ)
  | available (tokens : ℚ)
  | idle
deriving DecidableEq

section Limiter
variable (config : ProviderBudgetConfig)

def new (now : ℚ) : State := ⟨⟨config.capacity,now⟩,0,fun _ => none⟩

def refill (bucket : Bucket) (now : ℚ) : Bucket :=
  let elapsedSeconds := (now - bucket.lastRefill) / 1000
  if 0 < elapsedSeconds then
    ⟨min config.capacity (bucket.tokens + elapsedSeconds * config.refillRatePerSec),now⟩
  else bucket

def tryConsume (bucket : Bucket) (tokens : ℚ≥0) (now : ℚ) : Bool × Bucket :=
  let bucket := refill config bucket now
  if tokens ≤ bucket.tokens then (true,⟨bucket.tokens - tokens,bucket.lastRefill⟩) else (false,bucket)

/-- The head of the loop: the time that is up, or how long to sleep. -/
def pause (w : Waiting) (check left : ℚ) : Option ℚ :=
  if check - w.start < w.maxWaitMs then some (min 50 (w.maxWaitMs - (left - w.start))) else none

/-- The call of the number goes on waiting, or comes to its end. -/
def settle (s : State) (bucket : Bucket) (call : Nat) (w : Waiting) (check left : ℚ) : Answer × State :=
  match pause w check left with
  | some waitTime => (.sleeps waitTime,⟨bucket,s.calls,Function.update s.waiting call (some w)⟩)
  | none => (.refused,⟨bucket,s.calls,Function.update s.waiting call none⟩)

def step (s : State) : Call → Answer × State
  | .tryConsume tokens now =>
    match tryConsume config s.bucket tokens now with
    | (true,bucket) => (.granted tokens,{ s with bucket })
    | (false,bucket) => (.refused,{ s with bucket })
  | .getAvailableTokens now =>
    let bucket := refill config s.bucket now
    (.available bucket.tokens,{ s with bucket })
  | .consume tokens maxWaitMs now start check left =>
    match tryConsume config s.bucket tokens now with
    | (true,bucket) => (.granted tokens,{ s with bucket })
    | (false,bucket) => settle { s with calls := s.calls + 1 } bucket s.calls ⟨tokens,maxWaitMs,start⟩ check left
  | .wake call now check left =>
    match s.waiting call with
    | none => (.idle,s)
    | some w =>
      match tryConsume config s.bucket w.tokens now with
      | (true,bucket) => (.granted w.tokens,{ s with bucket, waiting := Function.update s.waiting call none })
      | (false,bucket) => settle s bucket call w check left

end Limiter

def Answer.tokens : Answer → ℚ
  | .granted tokens => tokens
  | _ => 0

def Call.now : Call → ℚ
  | .tryConsume _ now => now
  | .getAvailableTokens now => now
  | .consume _ _ now _ _ _ => now
  | .wake _ now _ _ => now

/-- The number of the `consume` that a call belongs to. -/
def Call.own (s : State) : Call → Option Nat
  | .consume .. => some s.calls
  | .wake call .. => some call
  | _ => none

def granted (past : List (Transition State Call Answer)) : ℚ := (past.map fun t => t.answer.tokens).sum

/-- The largest reading by which the bucket was refilled, or was filled at first. A reading that `consume`
    compares with the end of its wait does not reach the bucket. -/
def seen (start : ℚ) (past : List (Transition State Call Answer)) : ℚ :=
  past.foldl (fun most t => if t.answer = .idle then most else max most t.input.now) start

section Steps
variable (config : ProviderBudgetConfig)

/-- The bucket holds no more than its capacity and owes nothing. -/
structure Filled (config : ProviderBudgetConfig) (bucket : Bucket) : Prop where
  nonneg : 0 ≤ bucket.tokens
  le : bucket.tokens ≤ config.capacity

theorem refill_lastRefill (bucket : Bucket) (now : ℚ) :
    (refill config bucket now).lastRefill = max bucket.lastRefill now := by
  rw [refill]
  split
  · next later =>
    have after : bucket.lastRefill < now := by linarith
    exact (max_eq_right after.le).symm
  · next early =>
    have before : now ≤ bucket.lastRefill := by
      by_contra after
      exact early (by linarith)
    exact (max_eq_left before).symm

theorem refill_filled {bucket : Bucket} (filled : Filled config bucket) (now : ℚ) : Filled config (refill config bucket now) := by
  rw [refill]
  split
  · next later =>
    have gain : 0 ≤ (now - bucket.lastRefill) / 1000 * config.refillRatePerSec := by positivity
    exact ⟨le_min config.capacity.2 (add_nonneg filled.nonneg gain),min_le_left _ _⟩
  · exact filled

theorem refill_tokens_le (bucket : Bucket) (now : ℚ) :
    (refill config bucket now).tokens ≤
      bucket.tokens + config.refillRatePerSec * (((refill config bucket now).lastRefill - bucket.lastRefill) / 1000) := by
  rw [refill]
  split
  · refine (min_le_right _ _).trans (le_of_eq ?_)
    ring
  · simp

theorem tryConsume_cases (bucket : Bucket) (tokens : ℚ≥0) (now : ℚ) :
    ((tokens : ℚ) ≤ (refill config bucket now).tokens ∧
      tryConsume config bucket tokens now =
        (true,⟨(refill config bucket now).tokens - tokens,(refill config bucket now).lastRefill⟩)) ∨
    tryConsume config bucket tokens now = (false,refill config bucket now) := by
  rw [tryConsume]
  split
  · next enough => exact .inl ⟨enough,rfl⟩
  · exact .inr rfl

section
variable (s : State)
include s

theorem settle_bucket (bucket : Bucket) (call : Nat) (w : Waiting) (check left : ℚ) :
    (settle s bucket call w check left).2.bucket = bucket := by
  rw [settle]
  split <;> rfl

theorem settle_answer (bucket : Bucket) (call : Nat) (w : Waiting) (check left : ℚ) :
    (settle s bucket call w check left).1 = .refused ∨
      ∃ waitTime, (settle s bucket call w check left).1 = .sleeps waitTime := by
  rw [settle]
  split
  · next waitTime _ => exact .inr ⟨waitTime,rfl⟩
  · exact .inl rfl

/-- What a call does to the bucket: nothing, a refill, or a refill from which it takes what it grants. -/
theorem step_cases (c : Call) :
    ((step config s c).1 = .idle ∧ (step config s c).2 = s) ∨
    ((step config s c).1 ≠ .idle ∧ (step config s c).1.tokens = 0 ∧ (∀ tokens, (step config s c).1 ≠ .granted tokens) ∧
      (step config s c).2.bucket = refill config s.bucket c.now) ∨
    ∃ tokens : ℚ≥0, (step config s c).1 = .granted tokens ∧ (tokens : ℚ) ≤ (refill config s.bucket c.now).tokens ∧
      (step config s c).2.bucket =
        ⟨(refill config s.bucket c.now).tokens - tokens,(refill config s.bucket c.now).lastRefill⟩ := by
  have settled : ∀ (s' : State) (bucket : Bucket) (call : Nat) (w : Waiting) (check left : ℚ),
      (settle s' bucket call w check left).1 ≠ .idle ∧ (settle s' bucket call w check left).1.tokens = 0 ∧
        (∀ tokens, (settle s' bucket call w check left).1 ≠ .granted tokens) ∧
        (settle s' bucket call w check left).2.bucket = bucket := by
    intro s' bucket call w check left
    refine ⟨?_,?_,?_,settle_bucket ..⟩
    all_goals
      rcases settle_answer s' bucket call w check left with refused | ⟨waitTime,sleeps⟩
      · rw [refused]
        simp [Answer.tokens]
      · rw [sleeps]
        simp [Answer.tokens]
  cases c with
  | tryConsume tokens now =>
    rcases tryConsume_cases config s.bucket tokens now with ⟨enough,is⟩ | is
    · refine .inr (.inr ⟨tokens,?_,enough,?_⟩) <;> rw [step,is]
      rfl
    · refine .inr (.inl ⟨?_,?_,?_,?_⟩) <;> rw [step,is] <;> simp [Answer.tokens,Call.now]
  | getAvailableTokens now =>
    exact .inr (.inl ⟨by simp [step],rfl,by simp [step],rfl⟩)
  | consume tokens maxWaitMs now start check left =>
    rcases tryConsume_cases config s.bucket tokens now with ⟨enough,is⟩ | is
    · refine .inr (.inr ⟨tokens,?_,enough,?_⟩) <;> rw [step,is]
      rfl
    · refine .inr (.inl ?_)
      rw [step,is]
      exact settled ..
  | wake call now check left =>
    cases found : s.waiting call with
    | none => exact .inl (by simp [step,found])
    | some w =>
      rcases tryConsume_cases config s.bucket w.tokens now with ⟨enough,is⟩ | is
      · refine .inr (.inr ⟨w.tokens,?_,enough,?_⟩) <;> simp [step,found,is,Call.now]
      · refine .inr (.inl ?_)
        have same : step config s (.wake call now check left) = settle s (refill config s.bucket now) call w check left := by
          simp [step,found,is]
        rw [same]
        exact settled ..

theorem settle_waiting (bucket : Bucket) (call : Nat) (w : Waiting) (check left : ℚ) {other : Nat}
    (apart : other ≠ call) : (settle s bucket call w check left).2.waiting other = s.waiting other := by
  rw [settle]
  split <;> exact Function.update_of_ne apart ..

theorem step_waiting (c : Call) {other : Nat} (apart : c.own s ≠ some other) :
    (step config s c).2.waiting other = s.waiting other := by
  cases c with
  | tryConsume tokens now =>
    rw [step]
    split <;> rfl
  | getAvailableTokens now => rfl
  | consume tokens maxWaitMs now start check left =>
    rw [step]
    split
    · rfl
    · exact settle_waiting _ _ _ _ _ _ fun same => apart (congrArg some same.symm)
  | wake call now check left =>
    have ne : other ≠ call := fun same => apart (congrArg some same.symm)
    simp only [step]
    split
    · rfl
    · split
      · exact Function.update_of_ne ne ..
      · exact settle_waiting _ _ _ _ _ _ ne

theorem step_filled (c : Call) (filled : Filled config s.bucket) : Filled config (step config s c).2.bucket := by
  rcases step_cases config s c with ⟨_,same⟩ | ⟨_,_,_,same⟩ | ⟨tokens,_,enough,same⟩
  · rw [same]
    exact filled
  · rw [same]
    exact refill_filled config filled c.now
  · rw [same]
    have refilled : Filled config (refill config s.bucket c.now) := refill_filled config filled c.now
    have most : (0 : ℚ) ≤ tokens := tokens.2
    exact ⟨sub_nonneg.mpr enough,(sub_le_self _ most).trans refilled.le⟩

theorem step_lastRefill (c : Call) :
    (step config s c).2.bucket.lastRefill =
      if (step config s c).1 = .idle then s.bucket.lastRefill else max s.bucket.lastRefill c.now := by
  rcases step_cases config s c with ⟨idle,same⟩ | ⟨busy,_,_,same⟩ | ⟨tokens,grants,_,same⟩
  · rw [if_pos idle,same]
  · rw [if_neg busy,same,refill_lastRefill]
  · rw [if_neg (by rw [grants]; simp),same]
    exact refill_lastRefill ..

theorem step_balance (c : Call) :
    (step config s c).1.tokens + (step config s c).2.bucket.tokens ≤
      s.bucket.tokens +
        config.refillRatePerSec * (((step config s c).2.bucket.lastRefill - s.bucket.lastRefill) / 1000) := by
  have gains := refill_tokens_le config s.bucket c.now
  rcases step_cases config s c with ⟨idle,same⟩ | ⟨_,none_,_,same⟩ | ⟨tokens,grants,_,same⟩
  · rw [idle,same]
    simp [Answer.tokens]
  · rw [none_,same,zero_add]
    exact gains
  · rw [grants,same]
    simp only [Answer.tokens]
    linarith

end

end Steps

section Runs
variable (config : ProviderBudgetConfig)

theorem run_filled (start : ℚ) (calls : List Call) : Filled config (run (step config) (new config start) calls).bucket :=
  run_inv (I := fun s : State => Filled config s.bucket) (step_filled config) ⟨config.capacity.2,le_refl _⟩ calls

theorem run_lastRefill (s : State) (calls : List Call) :
    (run (step config) s calls).bucket.lastRefill = seen s.bucket.lastRefill (history (step config) s calls) := by
  induction calls generalizing s with
  | nil => rfl
  | cons c rest ih =>
    rw [run_cons,ih,history_cons,seen,seen,List.foldl_cons,step_lastRefill]
    rfl

theorem seen_append (start : ℚ) (first second : List (Transition State Call Answer)) :
    seen start (first ++ second) = seen (seen start first) second := List.foldl_append

theorem run_balance (s : State) (calls : List Call) :
    granted (history (step config) s calls) + (run (step config) s calls).bucket.tokens ≤
      s.bucket.tokens + config.refillRatePerSec *
        (((run (step config) s calls).bucket.lastRefill - s.bucket.lastRefill) / 1000) := by
  induction calls generalizing s with
  | nil => simp [granted]
  | cons c rest ih =>
    have first := step_balance config s c
    have later := ih (step config s c).2
    have sums : granted (history (step config) s (c :: rest)) =
        (step config s c).1.tokens + granted (history (step config) (step config s c).2 rest) := by
      simp [granted,transition]
    rw [sums,run_cons]
    linarith

end Runs

/-- In every run the bucket holds between nothing and its capacity; what is granted between two points of the run is
    at most the capacity and what the rate gives for the time by which the largest reading grew; and a call that
    is not granted leaves the bucket as the refill does, and all other calls waiting. -/
theorem granted_le (config : ProviderBudgetConfig) (start : ℚ) (calls : List Call) :
    (0 ≤ (run (step config) (new config start) calls).bucket.tokens ∧
      (run (step config) (new config start) calls).bucket.tokens ≤ config.capacity) ∧
    (∀ earlier between later, history (step config) (new config start) calls = earlier ++ between ++ later →
      granted between ≤ config.capacity +
        config.refillRatePerSec * ((seen start (earlier ++ between) - seen start earlier) / 1000)) ∧
    ∀ t ∈ history (step config) (new config start) calls, (∀ tokens, t.answer ≠ .granted tokens) → t.answer ≠ .idle →
      t.after.bucket = refill config t.before.bucket t.input.now ∧
        ∀ other, t.input.own t.before ≠ some other → t.after.waiting other = t.before.waiting other := by
  have filled := run_filled config start
  refine ⟨⟨(filled calls).nonneg,(filled calls).le⟩,?_,?_⟩
  · intro earlier between later split
    rw [List.append_assoc] at split
    obtain ⟨before,rest,_,rfl,restIs⟩ := history_parts split
    obtain ⟨during,_,_,rfl,_⟩ := history_parts restIs.symm
    have first : (run (step config) (new config start) before).bucket.lastRefill =
        seen start (history (step config) (new config start) before) := run_lastRefill ..
    have last := run_lastRefill config (run (step config) (new config start) before) during
    rw [first,← seen_append] at last
    have balance := run_balance config (run (step config) (new config start) before) during
    rw [first,last] at balance
    have left : 0 ≤ (run (step config) (run (step config) (new config start) before) during).bucket.tokens := by
      rw [← run_append]
      exact (filled (before ++ during)).nonneg
    have most := (filled before).le
    linarith
  · intro t listed notGranted busy
    obtain ⟨before,c,rfl⟩ := mem_history listed
    refine ⟨?_,fun other apart => step_waiting config _ c apart⟩
    rcases step_cases config (run (step config) (new config start) before) c with
      ⟨idle,_⟩ | ⟨_,_,_,same⟩ | ⟨tokens,grants,_⟩
    · exact (busy idle).elim
    · exact same
    · exact (notGranted tokens grants).elim

end StellarAlerts.TokenBucket
