import StellarAlerts.Numbers
import StellarAlerts.ReplayDefense

/-!
`check` on everything it takes: a timestamp may be a number too. A nonce is taken under a
key that lives longer than the drift window is wide, so a call that presents the same nonce
and timestamp again comes either while the key lives or when the timestamp has drifted too
far (`check_once`).
-/
namespace StellarAlerts.ReplayWindow
open Histories IntegerText NonceCache OneTimeMarks RemoteCalls ReplayDefense Utf16Text WebhookHeader WebhookSigner

/-- A timestamp as a caller presents it. -/
inductive TimestampInput where
  /-- null or undefined -/
  | missing
  | text (value : String)
  | number (value : Numbers.Number)

/-- The numbers are checked and rounded down as those of texts are. -/
def parseTimestampInput (otherNumber : String → Option Nat) : TimestampInput → Timestamp
  | .missing => parseTimestamp otherNumber none
  | .text value => parseTimestamp otherNumber (some value)
  | .number (.finite q) => if q ≤ 0 then .invalid else .millis ⌊q⌋.toNat
  | .number _ => .invalid

/-- `ReplayCheckInput` without its context, the clock at the call, and what becomes of the Redis command.
A nonce is none where it is no string. -/
structure ReplayCheckInput where
  nonce : Option String
  timestamp : TimestampInput
  now : Nat
  redis : Outcome

/-- The checks before the nonce is consumed. -/
def validate (options : Options) (input : ReplayCheckInput) : Except Rejection Fresh :=
  let nonce := trimmed (input.nonce.getD "")
  if nonce = "" then .error ⟨.MISSING_NONCE,"Missing replay-protection nonce",none⟩
  else if MAX_NONCE_LENGTH < utf16Length nonce then
    .error ⟨.INVALID_NONCE,"Nonce exceeds the maximum allowed length",none⟩
  else
    match parseTimestampInput options.otherNumber input.timestamp with
    | .missing => .error ⟨.MISSING_TIMESTAMP,"Missing request timestamp",none⟩
    | .invalid => .error ⟨.INVALID_TIMESTAMP,"Request timestamp is not a valid epoch millisecond value",none⟩
    | .millis timestamp =>
      let driftMs : Int := (input.now : Int) - timestamp
      if withinTolerance input.now timestamp options.driftToleranceMs then .ok ⟨nonce,timestamp,driftMs⟩
      else
        let direction := if 0 < driftMs then "older" else "further in the future than"
        .error ⟨.TIMESTAMP_DRIFT_EXCEEDED,
          s!"Request timestamp is {direction} the allowed {options.driftToleranceMs}ms drift window",some driftMs⟩

def check (options : Options) (stores : NonceStores) (input : ReplayCheckInput) : Except Rejection Fresh × NonceStores :=
  match validate options input with
  | .error rejection => (.error rejection,stores)
  | .ok fresh =>
    let (isFresh,stores) := checkAndStoreNonce stores input.now input.redis fresh.nonce options.nonceTtlSeconds
    if !isFresh then
      (.error ⟨.NONCE_ALREADY_CONSUMED,"Nonce has already been consumed; replayed request rejected",some fresh.driftMs⟩,
        stores)
    else (.ok fresh,stores)

theorem check_texts (options : Options) (stores : NonceStores) (now : Nat) (redis : Outcome) (nonce timestamp : Option String) :
    check options stores ⟨nonce,timestamp.elim .missing .text,now,redis⟩ = options.check stores now redis nonce timestamp := by
  cases timestamp <;> rfl

variable {options : Options} {input : ReplayCheckInput} {fresh : Fresh}

theorem validate_ok (valid : validate options input = .ok fresh) :
    fresh.nonce ≠ "" ∧ withinTolerance input.now fresh.timestamp options.driftToleranceMs = true := by
  simp only [validate] at valid
  split_ifs at valid with empty long
  cases parsed : parseTimestampInput options.otherNumber input.timestamp with
  | missing => simp [parsed] at valid
  | invalid => simp [parsed] at valid
  | millis value =>
    simp only [parsed] at valid
    by_cases within : withinTolerance input.now value options.driftToleranceMs
    · rw [if_pos within] at valid
      obtain rfl := Except.ok.inj valid
      exact ⟨empty,within⟩
    · rw [if_neg within] at valid
      cases valid

/-- The mark that a call checks: the key of its nonce, for the time to live. -/
def markOf (options : Options) (input : ReplayCheckInput) : Option (Check String) :=
  match validate options input with
  | .error _ => none
  | .ok fresh => some ⟨NONCE_PREFIX ++ fresh.nonce,input.now,options.nonceTtlSeconds * 1000⟩

theorem check_ok {stores : NonceStores} (passed : (check options stores input).1 = .ok fresh) :
    validate options input = .ok fresh := by
  unfold check at passed
  cases valid : validate options input with
  | error rejection =>
    rw [valid] at passed
    cases passed
  | ok found =>
    simp only [valid] at passed
    split_ifs at passed with taken
    rw [Except.ok.inj passed]

/-- A call, answered with whether it passed. -/
def admits (options : Options) (stores : NonceStores) (input : ReplayCheckInput) : Bool × NonceStores :=
  ((check options stores input).1.toBool,(check options stores input).2)

theorem admits_keepsMarks (available : input.redis = .ok) :
    KeepsMarks (admits options) (expiries false) (markOf options) input := by
  have answered : AnsweredBy false input.redis := by rw [available]; rfl
  constructor
  · intro stores none_
    cases valid : validate options input with
    | error rejection => simp [admits,check,valid]
    | ok fresh => simp [markOf,valid] at none_
  · intro stores c marks lives
    cases valid : validate options input with
    | error rejection => simp [markOf,valid] at marks
    | ok fresh =>
      obtain rfl : _ = c := by simpa [markOf,valid] using marks
      obtain ⟨refused,kept⟩ := @check_live false stores _ options.nonceTtlSeconds _ _ answered lives
      simp [admits,check,valid,refused,kept,Except.toBool]
  · intro stores c marks gone
    cases valid : validate options input with
    | error rejection => simp [markOf,valid] at marks
    | ok fresh =>
      obtain rfl : _ = c := by simpa [markOf,valid] using marks
      obtain ⟨taken,renewed⟩ := @check_gone false stores _ options.nonceTtlSeconds _ _ answered (validate_ok valid).1 gone
      intro key
      simp [admits,check,valid,taken,renewed]

/-- What a call of a run answered is what it validated. -/
theorem validated {start : NonceStores} {inputs : List ReplayCheckInput}
    {t : Transition NonceStores ReplayCheckInput (Except Rejection Fresh)} (among : t ∈ history (check options) start inputs)
    (passed : t.answer = .ok fresh) : validate options t.input = .ok fresh := by
  obtain ⟨before,input,rfl⟩ := mem_history among
  exact check_ok passed

/-- While Redis answers and a key lives longer than the drift window is wide, no two calls of a run pass
with one nonce and one timestamp. -/
theorem check_once (options : Options) (window : 2 * options.driftToleranceMs < options.nonceTtlSeconds * 1000)
    (start : NonceStores) (inputs : List ReplayCheckInput) (available : ∀ input ∈ inputs, input.redis = .ok) :
    (history (check options) start inputs).Pairwise fun t u => ∀ fresh fresh', t.answer = .ok fresh → u.answer = .ok fresh' →
      ¬ (fresh.nonce = fresh'.nonce ∧ fresh.timestamp = fresh'.timestamp) := by
  have keeps : ∀ input ∈ inputs, KeepsMarks (admits options) (expiries false) (markOf options) input :=
    fun input listed => admits_keepsMarks (available input listed)
  have apart := passes_apart keeps start
  unfold admits at apart
  rw [history_read,List.pairwise_map] at apart
  refine apart.imp_of_mem ?_
  rintro t u first second late fresh fresh' passed passed' ⟨nonces,timestamps⟩
  have valid := validated first passed
  have valid' := validated second passed'
  have lives : t.input.now + options.nonceTtlSeconds * 1000 ≤ u.input.now :=
    late _ _ (by rw [markOf,valid]) (by rw [markOf,valid']) (by rw [passed]; rfl) (by rw [passed']; rfl) (by rw [nonces])
  have within := (validate_ok valid).2
  have within' := (validate_ok valid').2
  simp only [withinTolerance,decide_eq_true_eq,timestamps] at within within'
  omega

/-- Eleven minutes of life for a window of five on either side. -/
def strict : Options := ⟨300000,660,fun _ => none⟩

theorem check_once_strict :
    (history (check strict) .start [⟨some "n",.number (.finite 1000),1000,.ok⟩,⟨some " n",.text "1000",2000,.ok⟩]).Pairwise
      fun t u => ∀ fresh fresh', t.answer = .ok fresh → u.answer = .ok fresh' →
        ¬ (fresh.nonce = fresh'.nonce ∧ fresh.timestamp = fresh'.timestamp) :=
  check_once strict (by decide) .start _ (by simp)

end StellarAlerts.ReplayWindow
