import StellarAlerts.NonceCache
import StellarAlerts.WebhookSigner

/-!
The verifier that remembers nonces. A nonce is marked for the tolerance from the moment
it is seen, while its timestamp may lie ahead by as much: what is seen early enough can
be sent again when the mark is gone. A run in which no accepted request outlives its
mark accepts every request with a nonce once (`webhook_accepted_once`).
-/
namespace StellarAlerts.WebhookReplay
open Histories NonceCache OneTimeMarks RemoteCalls WebhookHeader WebhookSigner

/-- `verifyHmacSha256` of a KMS signer; none where the service fails. -/
abbrev KmsVerify := String → String → Option Bool

/-- None where the call of the service throws. -/
def verifyParsedSignatureKms (now : Nat) (payload : String) (parsed : ParsedWebhookHeader) (kmsSigner : KmsVerify)
    (toleranceMs : Nat) (nonceOverride : Option String) : Option Bool :=
  let nonce := effectiveNonce parsed.nonce nonceOverride
  if !withinTolerance now parsed.timestamp toleranceMs then some false
  else
    match kmsSigner (buildWebhookDataToSign payload parsed.timestamp nonce) parsed.signature with
    | none => none
    | some true => some true
    | some false =>
      if parsed.nonce = "" ∧ nonceOverride.getD "" = "" then
        kmsSigner (buildWebhookDataToSign payload parsed.timestamp "") parsed.signature
      else some false

def verifyParsedSignatureSetKms (now : Nat) (payload : String) (primaryParsed : ParsedWebhookHeader)
    (secondaryParsed : Option ParsedWebhookHeader) (kmsSigner : KmsVerify) (toleranceMs : Nat)
    (nonceOverride : Option String) : Option ParsedWebhookHeader :=
  match verifyParsedSignatureKms now payload primaryParsed kmsSigner toleranceMs nonceOverride with
  | none => none
  | some true => some primaryParsed
  | some false =>
    match secondaryParsed with
    | none => none
    | some secondary =>
      match verifyParsedSignatureKms now payload secondary kmsSigner toleranceMs nonceOverride with
      | some true => some secondary
      | _ => none

/-- A call of `verifyWebhookSignature`, with the time it is made at, the options besides the
    tolerance and what becomes of its Redis command. -/
structure Call where
  now : Nat
  payload : Payload
  headerValue : HeaderValue
  secret : String
  nonce : Option String
  secondaryHeaderValue : Option String
  checkReplay : Option Bool
  kmsSigner : Option KmsVerify
  redis : Outcome

def Call.verifiedParsed (toleranceMs : Nat) (call : Call) : Option ParsedWebhookHeader :=
  match validatePayload call.payload with
  | .error _ => none
  | .ok payload =>
    match parseWebhookSignatureHeader call.headerValue with
    | .error _ => none
    | .ok parsed =>
      let secondaryParsed := parseSecondary call.secondaryHeaderValue
      match verifyParsedSignatureSet call.now payload parsed secondaryParsed call.secret toleranceMs call.nonce with
      | some verified => some verified
      | none =>
        match call.kmsSigner with
        | none => none
        | some kmsSigner =>
          verifyParsedSignatureSetKms call.now payload parsed secondaryParsed kmsSigner toleranceMs call.nonce

def ttlSeconds (toleranceMs : Nat) : Nat := max 1 ((toleranceMs + 999) / 1000)

def verifyWebhookSignature (toleranceMs : Nat) (stores : NonceStores) (call : Call) : Bool × NonceStores :=
  match call.verifiedParsed toleranceMs with
  | none => (false,stores)
  | some verified =>
    let nonce := effectiveNonce verified.nonce call.nonce
    if nonce ≠ "" ∧ call.checkReplay.getD true = true then
      checkAndStoreNonce stores call.now call.redis nonce (ttlSeconds toleranceMs)
    else (true,stores)

/-- The timestamp and the nonce that the verified signature covers. -/
def Call.signed (toleranceMs : Nat) (call : Call) : Option (Nat × String) :=
  (call.verifiedParsed toleranceMs).map fun verified => (verified.timestamp,effectiveNonce verified.nonce call.nonce)

variable {payload : String} {toleranceMs : Nat} {nonceOverride : Option String}

variable {parsed : ParsedWebhookHeader}

theorem verifyParsedSignature_within {now : Nat} {secret : String}
    (verified : verifyParsedSignature now payload parsed secret toleranceMs nonceOverride = true) :
    withinTolerance now parsed.timestamp toleranceMs = true := by
  by_contra outside
  simp [verifyParsedSignature,outside] at verified

variable {kmsSigner : KmsVerify}

theorem verifyParsedSignatureKms_within {now : Nat}
    (verified : verifyParsedSignatureKms now payload parsed kmsSigner toleranceMs nonceOverride = some true) :
    withinTolerance now parsed.timestamp toleranceMs = true := by
  by_contra outside
  rw [Bool.not_eq_true] at outside
  simp [verifyParsedSignatureKms,outside] at verified

variable {primary winner : ParsedWebhookHeader} {secondary : Option ParsedWebhookHeader}

theorem verifyParsedSignatureSet_within {now : Nat} {secret : String}
    (verified : verifyParsedSignatureSet now payload primary secondary secret toleranceMs nonceOverride = some winner) :
    withinTolerance now winner.timestamp toleranceMs = true := by
  unfold verifyParsedSignatureSet at verified
  split at verified
  next first =>
    injection verified with same
    exact same ▸ verifyParsedSignature_within first
  next =>
    split at verified
    next other =>
      split at verified
      next second =>
        injection verified with same
        exact same ▸ verifyParsedSignature_within second
      next => cases verified
    next => cases verified

theorem verifyParsedSignatureSetKms_within {now : Nat}
    (verified : verifyParsedSignatureSetKms now payload primary secondary kmsSigner toleranceMs nonceOverride = some winner) :
    withinTolerance now winner.timestamp toleranceMs = true := by
  unfold verifyParsedSignatureSetKms at verified
  split at verified
  next => cases verified
  next first =>
    injection verified with same
    exact same ▸ verifyParsedSignatureKms_within first
  next =>
    split at verified
    next => cases verified
    next other =>
      split at verified
      next second =>
        injection verified with same
        exact same ▸ verifyParsedSignatureKms_within second
      next => cases verified

variable {call : Call}

theorem verifiedParsed_within {verified : ParsedWebhookHeader} (found : call.verifiedParsed toleranceMs = some verified) :
    withinTolerance call.now verified.timestamp toleranceMs = true := by
  unfold Call.verifiedParsed at found
  split at found
  next => cases found
  next payload valid =>
    split at found
    next => cases found
    next parsed parses =>
      simp only at found
      split at found
      next winner locally =>
        injection found with same
        exact same ▸ verifyParsedSignatureSet_within locally
      next =>
        split at found
        next => cases found
        next kmsSigner => exact verifyParsedSignatureSetKms_within found

def Call.check (toleranceMs : Nat) (call : Call) : Option (Check String) :=
  match call.signed toleranceMs with
  | none => none
  | some (_,nonce) =>
    if nonce ≠ "" ∧ call.checkReplay.getD true = true then
      some ⟨NONCE_PREFIX ++ nonce,call.now,ttlSeconds toleranceMs * 1000⟩
    else none

theorem verify_check {c : Check String} (checks : call.check toleranceMs = some c) :
    ∃ nonce, nonce ≠ "" ∧ c = ⟨NONCE_PREFIX ++ nonce,call.now,ttlSeconds toleranceMs * 1000⟩ ∧
      ∀ stores, verifyWebhookSignature toleranceMs stores call =
        checkAndStoreNonce stores call.now call.redis nonce (ttlSeconds toleranceMs) := by
  unfold Call.check Call.signed at checks
  cases found : call.verifiedParsed toleranceMs with
  | none => simp [found] at checks
  | some verified =>
    simp only [found,Option.map_some] at checks
    split at checks
    next checked =>
      injection checks with same
      refine ⟨_,checked.1,same.symm,?_⟩
      intro stores
      simp only [verifyWebhookSignature,found,checked,ne_eq,not_false_eq_true,and_self,↓reduceIte]
    next => cases checks

theorem verify_alone (none_ : call.check toleranceMs = none) (stores : NonceStores) :
    (verifyWebhookSignature toleranceMs stores call).2 = stores := by
  unfold Call.check Call.signed at none_
  unfold verifyWebhookSignature
  cases found : call.verifiedParsed toleranceMs with
  | none => rfl
  | some verified =>
    simp only [found,Option.map_some] at none_
    split at none_
    next => cases none_
    next unchecked => simp only [if_neg unchecked]

theorem verify_keepsMarks {degraded : Bool} (answered : AnsweredBy degraded call.redis) :
    KeepsMarks (verifyWebhookSignature toleranceMs) (expiries degraded) (Call.check toleranceMs) call := by
  constructor
  · intro stores none_
    rw [verify_alone none_]
  · intro stores c checks lives
    obtain ⟨nonce,some_,rfl,same⟩ := verify_check checks
    rw [same]
    exact check_live answered lives
  · intro stores c checks gone
    obtain ⟨nonce,some_,rfl,same⟩ := verify_check checks
    rw [same]
    exact (check_gone answered some_ gone).2

def OneStore (degraded : Bool) (calls : List Call) : Prop :=
  ∀ call ∈ calls, AnsweredBy degraded call.redis ∧ call.checkReplay.getD true = true

/-- The mark of a request that is seen now outlives its timestamp. -/
def Timely (toleranceMs : Nat) (call : Call) : Prop :=
  ∀ timestamp nonce, call.signed toleranceMs = some (timestamp,nonce) → nonce ≠ "" →
    timestamp + toleranceMs < call.now + ttlSeconds toleranceMs * 1000

/-- In a run of timely requests no two accepted calls have the same signed timestamp and nonce. -/
theorem webhook_accepted_once (toleranceMs : Nat) (degraded : Bool) (calls : List Call) (oneStore : OneStore degraded calls)
    (timely : ∀ call ∈ calls, Timely toleranceMs call) (start : NonceStores) :
    (history (verifyWebhookSignature toleranceMs) start calls).Pairwise fun t u =>
      t.answer = true → u.answer = true → ∀ timestamp nonce, nonce ≠ "" →
        t.input.signed toleranceMs = some (timestamp,nonce) → u.input.signed toleranceMs ≠ some (timestamp,nonce) := by
  have keeps : ∀ call ∈ calls,
      KeepsMarks (verifyWebhookSignature toleranceMs) (expiries degraded) (Call.check toleranceMs) call :=
    fun call listed => verify_keepsMarks (oneStore call listed).1
  refine (passes_apart keeps start).imp_of_mem ?_
  intro t u first second later accepted accepted' timestamp nonce some_ signed signed'
  have memberT := input_mem_of_history first
  have memberU := input_mem_of_history second
  have checkT : t.input.check toleranceMs = some ⟨NONCE_PREFIX ++ nonce,t.input.now,ttlSeconds toleranceMs * 1000⟩ := by
    simp [Call.check,signed,some_,(oneStore _ memberT).2]
  have checkU : u.input.check toleranceMs = some ⟨NONCE_PREFIX ++ nonce,u.input.now,ttlSeconds toleranceMs * 1000⟩ := by
    simp [Call.check,signed',some_,(oneStore _ memberU).2]
  have gone := later _ _ checkT checkU accepted accepted' rfl
  have outlived := timely _ memberT timestamp nonce signed some_
  obtain ⟨verified,found,same⟩ := Option.map_eq_some_iff.mp signed'
  have within := verifiedParsed_within found
  injection same with timeIs _
  rw [timeIs,withinTolerance,decide_eq_true_eq] at within
  simp only at gone
  omega

def request (timestamp now : Nat) : Call :=
  ⟨now,.string "p",.string (generateWebhookSignature "p" "s" timestamp "n").headerValue,"s",none,none,none,none,.ok⟩

variable {timestamp : Nat}

section
variable (safe : 0 < timestamp ∧ timestamp ≤ MAX_SAFE_INTEGER)
include safe

theorem request_verified {now : Nat}
    (within : withinTolerance now timestamp toleranceMs = true) :
    (request timestamp now).verifiedParsed toleranceMs =
      some ⟨timestamp,"n",(generateWebhookSignature "p" "s" timestamp "n").signature⟩ := by
  have plain : PlainNonce "n" := ⟨by decide,by decide,by decide,by decide⟩
  have parses := parse_generated safe plain "p" "s"
  have verified := verified_generated within "p" "s" "n"
  have valid : validatePayload (.string "p") = .ok "p" := by decide
  simp [Call.verifiedParsed,request,valid,parses,verifyParsedSignatureSet,verified]

theorem request_signed {now : Nat}
    (within : withinTolerance now timestamp toleranceMs = true) :
    (request timestamp now).signed toleranceMs = some (timestamp,"n") := by
  simp [Call.signed,request_verified safe within,effectiveNonce]

theorem verify_request {now : Nat}
    (within : withinTolerance now timestamp toleranceMs = true) (stores : NonceStores) :
    verifyWebhookSignature toleranceMs stores (request timestamp now) =
      checkAndStoreNonce stores now .ok "n" (ttlSeconds toleranceMs) := by
  simp only [verifyWebhookSignature,request_verified safe within]
  simp [effectiveNonce,request]

end

/-- The same request twice. -/
def twice : List Call := [request 1000000 1000001,request 1000000 1200000]

theorem webhook_accepted_once_pair :
    OneStore false twice ∧ (∀ call ∈ twice, Timely 300000 call) ∧
      ((history (verifyWebhookSignature 300000) .start twice).map (·.answer)) ≠ [true,true] := by
  have signed : ∀ call ∈ twice, call.signed 300000 = some (1000000,"n") := by
    simp only [twice,List.mem_cons,List.not_mem_nil,or_false,forall_eq_or_imp,forall_eq]
    exact ⟨request_signed (by decide) (by decide),request_signed (by decide) (by decide)⟩
  have oneStore : OneStore false twice := by
    simp [OneStore,twice,request,AnsweredBy,Outcome.error]
  have timely : ∀ call ∈ twice, Timely 300000 call := by
    intro call listed timestamp nonce found _
    rw [signed call listed] at found
    injection found with same
    injection same with timeIs _
    have later : 1000001 ≤ call.now := by
      simp only [twice,List.mem_cons,List.not_mem_nil,or_false] at listed
      rcases listed with rfl | rfl <;> decide
    have ttl : ttlSeconds 300000 = 300 := by decide
    omega
  refine ⟨oneStore,timely,?_⟩
  intro accepted
  have once := webhook_accepted_once 300000 false twice oneStore timely .start
  obtain ⟨t,u,split⟩ : ∃ t u, history (verifyWebhookSignature 300000) .start twice = [t,u] := ⟨_,_,rfl⟩
  have listedT : t.input ∈ twice := input_mem_of_history (by rw [split]; simp)
  have listedU : u.input ∈ twice := input_mem_of_history (by rw [split]; simp)
  rw [split] at accepted once
  simp only [List.map_cons,List.map_nil,List.cons.injEq,and_true] at accepted
  have apart := (List.pairwise_cons.mp once).1 u (List.mem_singleton_self u)
  exact apart accepted.1 accepted.2 1000000 "n" (by decide) (signed _ listedT) (signed _ listedU)

/-- A request with a timestamp ahead is accepted again when its mark is gone. -/
theorem webhook_replayed :
    (history (verifyWebhookSignature 300000) .start [request 1300000 1000000,request 1300000 1300000]).map
        (·.answer) = [true,true] ∧
      (request 1300000 1000000).signed 300000 = some (1300000,"n") ∧
      (request 1300000 1300000).signed 300000 = some (1300000,"n") := by
  have safe : 0 < 1300000 ∧ 1300000 ≤ MAX_SAFE_INTEGER := by decide
  have early : withinTolerance 1000000 1300000 300000 = true := by decide
  have late : withinTolerance 1300000 1300000 300000 = true := by decide
  refine ⟨?_,request_signed safe early,request_signed safe late⟩
  simp only [history_cons,history_nil,transition,List.map_cons,List.map_nil,verify_request safe early,
    verify_request safe late]
  decide

end StellarAlerts.WebhookReplay
