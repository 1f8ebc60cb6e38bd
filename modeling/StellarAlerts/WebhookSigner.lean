import StellarAlerts.HmacSha256
import StellarAlerts.WebhookHeader

/-!
Signing and verifying webhooks. The verifier that answers a status and the one that
answers a truth value agree (`evaluate_valid_iff`).
-/
namespace StellarAlerts.WebhookSigner
open HexText (toHex isHex)
open HmacSha256
open Sha256 (utf8)
open Utf16Text WebhookHeader

def DEFAULT_DRIFT_TOLERANCE_MS : Nat := 300000
def MAX_WEBHOOK_PAYLOAD_LENGTH : Nat := 1024 * 1024

/-- A payload of unknown type. -/
inductive Payload where
  /-- null or undefined -/
  | missing
  | string (text : String)
  /-- another value, with its text -/
  | other (text : String)
deriving DecidableEq, Repr

def normalizePayload : Payload → String
  | .missing => ""
  | .string text => text
  | .other text => text

def validatePayload (payload : Payload) : Except String String :=
  let normalized := normalizePayload payload
  if MAX_WEBHOOK_PAYLOAD_LENGTH < utf16Length normalized then .error "Payload exceeds maximum length" else .ok normalized

theorem validatePayload_string {text payload : String} (valid : validatePayload (.string text) = .ok payload) :
    payload = text := by
  unfold validatePayload normalizePayload at valid
  by_cases long : MAX_WEBHOOK_PAYLOAD_LENGTH < utf16Length text
  · simp [long] at valid
  · simpa [long] using valid.symm

def buildWebhookDataToSign (payload : String) (timestamp : Nat) (nonce : String) : String :=
  if nonce ≠ "" then s!"{timestamp}.{nonce}.{payload}" else s!"{timestamp}.{payload}"
def computeLocalHmacSignature (dataToSign secret : String) : String := toHex (hmac (utf8 secret) (utf8 dataToSign))

structure WebhookHeaderResult where
  signature : String
  timestamp : Nat
  nonce : String
  headerValue : String
deriving DecidableEq, Repr

def generateWebhookSignature (payload secret : String) (timestamp : Nat) (nonce : String) : WebhookHeaderResult :=
  let dataToSign := buildWebhookDataToSign payload timestamp nonce
  let signature := computeLocalHmacSignature dataToSign secret
  ⟨signature,timestamp,nonce,buildWebhookHeaderValue timestamp nonce signature⟩

/-- `crypto.timingSafeEqual` on the bytes of two texts of one length. -/
def safeTimingSafeEqual (left right : String) : Bool := utf8 left == utf8 right

/-- `a || b || ''` on texts. -/
def effectiveNonce (nonce : String) (nonceOverride : Option String) : String :=
  if nonce ≠ "" then nonce else nonceOverride.getD ""

theorem effectiveNonce_none (nonce : String) : effectiveNonce nonce none = nonce := by
  by_cases empty : nonce = ""
  · simp [effectiveNonce,empty]
  · simp [effectiveNonce,empty]

/-- `Math.abs(Date.now() - timestamp) <= toleranceMs`. -/
def withinTolerance (now timestamp toleranceMs : Nat) : Bool :=
  decide ((now : Int) - timestamp ≤ toleranceMs ∧ (timestamp : Int) - now ≤ toleranceMs)

def verifyParsedSignature (now : Nat) (payload : String) (parsed : ParsedWebhookHeader) (secret : String)
    (toleranceMs : Nat) (nonceOverride : Option String) : Bool :=
  let nonce := effectiveNonce parsed.nonce nonceOverride
  if !withinTolerance now parsed.timestamp toleranceMs then false
  else
    let expected := generateWebhookSignature payload secret parsed.timestamp nonce
    if safeTimingSafeEqual parsed.signature expected.signature then true
    else if parsed.nonce = "" ∧ nonceOverride.getD "" = "" then
      let legacyExpected := generateWebhookSignature payload secret parsed.timestamp ""
      safeTimingSafeEqual parsed.signature legacyExpected.signature
    else false

def verifyParsedSignatureSet (now : Nat) (payload : String) (primaryParsed : ParsedWebhookHeader)
    (secondaryParsed : Option ParsedWebhookHeader) (secret : String) (toleranceMs : Nat)
    (nonceOverride : Option String) : Option ParsedWebhookHeader :=
  if verifyParsedSignature now payload primaryParsed secret toleranceMs nonceOverride then some primaryParsed
  else
    match secondaryParsed with
    | some secondary =>
      if verifyParsedSignature now payload secondary secret toleranceMs nonceOverride then some secondary else none
    | none => none

def parseSecondary (secondaryHeaderValue : Option String) : Option ParsedWebhookHeader :=
  match secondaryHeaderValue with
  | some text => if text ≠ "" then (parseWebhookSignatureHeader (.string text)).toOption else none
  | none => none

structure WebhookVerificationResult where
  status : Nat
  valid : Bool
  error : Option String
deriving DecidableEq, Repr

/-- The options that the verifiers share. -/
structure VerifyWebhookOptions where
  toleranceMs : Option Nat
  nonce : Option String
  secondaryHeaderValue : Option String
deriving DecidableEq, Repr

def evaluateWebhookVerification (now : Nat) (payload : Payload) (headerValue : HeaderValue) (secret : Option String)
    (options : VerifyWebhookOptions) : WebhookVerificationResult :=
  match validatePayload payload with
  | .error reason => ⟨400,false,some reason⟩
  | .ok payload =>
    if secret.getD "" = "" then ⟨400,false,some "Invalid webhook secret"⟩
    else
      match parseWebhookSignatureHeader headerValue with
      | .error reason => ⟨400,false,some reason⟩
      | .ok parsed =>
        let toleranceMs := options.toleranceMs.getD DEFAULT_DRIFT_TOLERANCE_MS
        match verifyParsedSignatureSet now payload parsed (parseSecondary options.secondaryHeaderValue) (secret.getD "")
          toleranceMs options.nonce with
        | none => ⟨401,false,some "Invalid webhook signature"⟩
        | some _ => ⟨200,true,none⟩

def verifyWebhookSignatureSync (now : Nat) (payload : Payload) (headerValue : HeaderValue) (secret : String)
    (toleranceMs : Nat) (nonceOverride secondaryHeaderValue : Option String) : Bool :=
  match validatePayload payload with
  | .error _ => false
  | .ok payload =>
    match parseWebhookSignatureHeader headerValue with
    | .error _ => false
    | .ok parsed =>
      (verifyParsedSignatureSet now payload parsed (parseSecondary secondaryHeaderValue) secret toleranceMs
        nonceOverride).isSome

theorem evaluate_valid_iff (now : Nat) (payload : Payload) (headerValue : HeaderValue) {secret : String}
    (some_ : secret ≠ "") (toleranceMs : Nat) (nonce secondaryHeaderValue : Option String) :
    (evaluateWebhookVerification now payload headerValue (some secret)
        ⟨some toleranceMs,nonce,secondaryHeaderValue⟩).valid =
      verifyWebhookSignatureSync now payload headerValue secret toleranceMs nonce secondaryHeaderValue := by
  unfold evaluateWebhookVerification verifyWebhookSignatureSync
  cases validatePayload payload with
  | error reason => rfl
  | ok payload =>
    simp only [Option.getD_some,if_neg some_]
    cases parseWebhookSignatureHeader headerValue with
    | error reason => rfl
    | ok parsed =>
      cases verified : verifyParsedSignatureSet now payload parsed (parseSecondary secondaryHeaderValue) secret toleranceMs
        nonce with
      | none => simp [verified]
      | some winner => simp [verified]

theorem signature_hex (payload secret : String) (timestamp : Nat) (nonce : String) :
    isHex 64 (generateWebhookSignature payload secret timestamp nonce).signature = true :=
  HexText.isHex_toHex (by simp)

theorem parse_generated {timestamp : Nat} (safe : 0 < timestamp ∧ timestamp ≤ MAX_SAFE_INTEGER) {nonce : String}
    (plain : PlainNonce nonce) (payload secret : String) :
    parseWebhookSignatureHeader (.string (generateWebhookSignature payload secret timestamp nonce).headerValue) =
      .ok ⟨timestamp,nonce,(generateWebhookSignature payload secret timestamp nonce).signature⟩ :=
  parse_build safe plain (signature_hex ..)

theorem verified_generated {now timestamp toleranceMs : Nat} (within : withinTolerance now timestamp toleranceMs = true)
    (payload secret nonce : String) :
    verifyParsedSignature now payload ⟨timestamp,nonce,(generateWebhookSignature payload secret timestamp nonce).signature⟩
      secret toleranceMs none = true := by
  simp [verifyParsedSignature,within,effectiveNonce_none,safeTimingSafeEqual]

theorem sync_generated {now timestamp toleranceMs : Nat} {payload secret nonce : String} {headerValue : HeaderValue}
    (within : withinTolerance now timestamp toleranceMs = true) (valid : validatePayload (.string payload) = .ok payload)
    (parses : parseWebhookSignatureHeader headerValue =
      .ok ⟨timestamp,nonce,(generateWebhookSignature payload secret timestamp nonce).signature⟩) :
    verifyWebhookSignatureSync now (.string payload) headerValue secret toleranceMs none none = true := by
  simp [verifyWebhookSignatureSync,valid,parses,verifyParsedSignatureSet,verified_generated within]

/-- Headers built from a positive safe integer, a plain nonce and 64 digits are parsed to what they were built from, and under a
    nonempty secret the two verifiers agree on every header and payload. -/
theorem header_round_trip :
    (∀ timestamp nonce signature, 0 < timestamp → timestamp ≤ MAX_SAFE_INTEGER → PlainNonce nonce →
      isHex 64 signature = true →
      parseWebhookSignatureHeader (.string (buildWebhookHeaderValue timestamp nonce signature)) =
        .ok ⟨timestamp,nonce,signature⟩) ∧
    ∀ now payload headerValue secret toleranceMs nonce secondaryHeaderValue, secret ≠ "" →
      ((evaluateWebhookVerification now payload headerValue (some secret)
          ⟨some toleranceMs,nonce,secondaryHeaderValue⟩).valid = true ↔
        verifyWebhookSignatureSync now payload headerValue secret toleranceMs nonce secondaryHeaderValue = true) := by
  refine ⟨?_,?_⟩
  · intro timestamp nonce signature positive safe plain hex
    exact parse_build ⟨positive,safe⟩ plain hex
  · intro now payload headerValue secret toleranceMs nonce secondaryHeaderValue some_
    rw [evaluate_valid_iff now payload headerValue some_]

def zeros64 : String := String.ofList (List.replicate 64 '0')

theorem header_round_trip_first :
    parseWebhookSignatureHeader (.string (buildWebhookHeaderValue 1 "a.b" zeros64)) = .ok ⟨1,"a.b",zeros64⟩ ∧
      ((evaluateWebhookVerification 0 (.string "p") (.string (buildWebhookHeaderValue 1 "a.b" zeros64)) (some "s")
          ⟨some 10,none,none⟩).valid = true ↔
        verifyWebhookSignatureSync 0 (.string "p") (.string (buildWebhookHeaderValue 1 "a.b" zeros64)) "s" 10 none none =
          true) := by
  obtain ⟨parses,agree⟩ := header_round_trip
  have plain : PlainNonce "a.b" := ⟨by decide,by decide,by decide,by decide⟩
  exact ⟨parses 1 "a.b" zeros64 (by decide) (by decide) plain (by decide),
    agree 0 (.string "p") _ "s" 10 none none (by decide)⟩

/-- The parser refuses the timestamp zero, which the builder writes. -/
theorem header_of_zero :
    PlainNonce "n" ∧ isHex 64 zeros64 = true ∧
      parseWebhookSignatureHeader (.string (buildWebhookHeaderValue 0 "n" zeros64)) = .error "Invalid timestamp value" :=
  ⟨⟨by decide,by decide,by decide,by decide⟩,by decide,by decide +kernel⟩

end StellarAlerts.WebhookSigner
