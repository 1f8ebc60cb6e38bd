import StellarAlerts.NonceCache
import StellarAlerts.SeparatedText
import StellarAlerts.WebhookSigner

/-!
The hook in front of signed endpoints. It takes the nonce and the timestamp from headers
of their own before it looks at the signature header. In a run where these repeat what
was signed, every accepted request has its signed nonce and timestamp taken, and no
signature header is accepted twice (`signed_taken_once`).
-/
namespace StellarAlerts.ReplayDefense
open Histories IntegerText NonceCache OneTimeMarks RemoteCalls SeparatedText Utf16Text WebhookHeader WebhookSigner

def REPLAY_DRIFT_TOLERANCE_MS : Nat := 30000
def REPLAY_NONCE_TTL_SECONDS : Nat := 300
def REPLAY_NONCE_HEADER : String := "x-stellar-alerts-nonce"
def REPLAY_TIMESTAMP_HEADER : String := "x-stellar-alerts-timestamp"
def REPLAY_SIGNATURE_HEADER : String := "x-stellar-signature"

inductive ReplayRejectionReason where
  | MISSING_NONCE
  | INVALID_NONCE
  | MISSING_TIMESTAMP
  | INVALID_TIMESTAMP
  | TIMESTAMP_DRIFT_EXCEEDED
  | NONCE_ALREADY_CONSUMED
deriving DecidableEq, Repr

def ReplayRejectionReason.text : ReplayRejectionReason → String
  | .MISSING_NONCE => "MISSING_NONCE"
  | .INVALID_NONCE => "INVALID_NONCE"
  | .MISSING_TIMESTAMP => "MISSING_TIMESTAMP"
  | .INVALID_TIMESTAMP => "INVALID_TIMESTAMP"
  | .TIMESTAMP_DRIFT_EXCEEDED => "TIMESTAMP_DRIFT_EXCEEDED"
  | .NONCE_ALREADY_CONSUMED => "NONCE_ALREADY_CONSUMED"

structure Rejection where
  reason : ReplayRejectionReason
  message : String
  driftMs : Option Int
deriving DecidableEq, Repr

structure Fresh where
  nonce : String
  timestamp : Nat
  driftMs : Int
deriving DecidableEq, Repr

/-- The options of the defense, and how `Number` reads texts that are no word of digits below
    the safe integers: rounded down, none where it is not finite or not positive. -/
structure Options where
  driftToleranceMs : Nat
  nonceTtlSeconds : Nat
  otherNumber : String → Option Nat

/-- `Number(text)`, rounded down; none where it is not finite or not positive. -/
def Number (otherNumber : String → Option Nat) (text : String) : Option Nat :=
  if isDigits text ∧ decimal text ≤ MAX_SAFE_INTEGER then
    if decimal text = 0 then none else some (decimal text)
  else otherNumber text

inductive Timestamp where
  | missing
  | invalid
  | millis (value : Nat)
deriving DecidableEq, Repr

def parseTimestamp (otherNumber : String → Option Nat) (value : Option String) : Timestamp :=
  match value with
  | none => .missing
  | some text =>
    if text = "" then .missing
    else
      match Number otherNumber text with
      | none => .invalid
      | some parsed => .millis parsed

/-- The checks of `check` before the nonce is consumed. -/
def Options.validate (options : Options) (now : Nat) (nonce timestamp : Option String) : Except Rejection Fresh :=
  let nonce := String.ofList (trim (nonce.getD "").toList)
  if nonce = "" then .error ⟨.MISSING_NONCE,"Missing replay-protection nonce",none⟩
  else if MAX_NONCE_LENGTH < utf16Length nonce then
    .error ⟨.INVALID_NONCE,"Nonce exceeds the maximum allowed length",none⟩
  else
    match parseTimestamp options.otherNumber timestamp with
    | .missing => .error ⟨.MISSING_TIMESTAMP,"Missing request timestamp",none⟩
    | .invalid => .error ⟨.INVALID_TIMESTAMP,"Request timestamp is not a valid epoch millisecond value",none⟩
    | .millis timestamp =>
      let driftMs : Int := (now : Int) - timestamp
      if withinTolerance now timestamp options.driftToleranceMs then .ok ⟨nonce,timestamp,driftMs⟩
      else
        let direction := if 0 < driftMs then "older" else "further in the future than"
        .error ⟨.TIMESTAMP_DRIFT_EXCEEDED,
          s!"Request timestamp is {direction} the allowed {options.driftToleranceMs}ms drift window",some driftMs⟩

def Options.check (options : Options) (stores : NonceStores) (now : Nat) (outcome : Outcome)
    (nonce timestamp : Option String) : Except Rejection Fresh × NonceStores :=
  match options.validate now nonce timestamp with
  | .error rejection => (.error rejection,stores)
  | .ok fresh =>
    let (isFresh,stores) := checkAndStoreNonce stores now outcome fresh.nonce options.nonceTtlSeconds
    if !isFresh then
      (.error ⟨.NONCE_ALREADY_CONSUMED,"Nonce has already been consumed; replayed request rejected",some fresh.driftMs⟩,
        stores)
    else (.ok fresh,stores)

structure AuthenticationError where
  message : String
  code : String
deriving DecidableEq, Repr

def Options.assertFresh (options : Options) (stores : NonceStores) (now : Nat) (outcome : Outcome)
    (nonce timestamp : Option String) : Except AuthenticationError Fresh × NonceStores :=
  match options.check stores now outcome nonce timestamp with
  | (.ok fresh,stores) => (.ok fresh,stores)
  | (.error rejection,stores) => (.error ⟨rejection.message,"WEBHOOK_REPLAY_" ++ rejection.reason.text⟩,stores)

/-- A header as the server hands it on. -/
inductive RawHeader where
  | absent
  | text (value : String)
  /-- an array, with its first element if that is a string -/
  | array (first : Option String)
deriving DecidableEq, Repr

abbrev Headers := String → RawHeader
def trimmed (text : String) : String := String.ofList (trim text.toList)

def Headers.header (headers : Headers) (name : String) : Option String :=
  match headers name with
  | .text raw => if trimmed raw ≠ "" then some (trimmed raw) else none
  | .array (some first) => some (trimmed first)
  | _ => none

/-- One round of the loop over the segments; none where it is skipped. -/
def segmentField (segment : List Char) : Option (List Char × List Char) :=
  let eq := segment.idxOf '='
  if eq = 0 ∨ eq = segment.length then none else some (trim (segment.take eq),trim (segment.drop (eq + 1)))

/-- The fields of a signature header; `lookup` finds the first of a name. -/
def fields (signatureHeader : String) : List (List Char × List Char) :=
  (signatureHeader.toList.splitOn ',').filterMap segmentField

def fieldOf (signatureHeader : String) (key : String) : Option String :=
  ((fields signatureHeader).lookup key.toList).map String.ofList

def extractReplayHeaders (headers : Headers) : Option String × Option String :=
  let nonce := headers.header REPLAY_NONCE_HEADER
  let timestamp := headers.header REPLAY_TIMESTAMP_HEADER
  match headers.header REPLAY_SIGNATURE_HEADER with
  | none => (nonce,timestamp)
  | some signatureHeader =>
    if signatureHeader ≠ "" ∧ utf16Length signatureHeader ≤ MAX_WEBHOOK_HEADER_LENGTH then
      (nonce.or (fieldOf signatureHeader "n"),timestamp.or (fieldOf signatureHeader "t"))
    else (nonce,timestamp)

/-- A request, with the time it comes in and what becomes of the Redis command for it. -/
structure Request where
  now : Nat
  headers : Headers
  body : String
  redis : Outcome

def replayDefenseHook (options : Options) (stores : NonceStores) (request : Request) :
    Except AuthenticationError Fresh × NonceStores :=
  let (nonce,timestamp) := extractReplayHeaders request.headers
  options.assertFresh stores request.now request.redis nonce timestamp

/-- The signature header as the verifier takes it. -/
def Request.headerValue (request : Request) : HeaderValue :=
  match request.headers REPLAY_SIGNATURE_HEADER with
  | .absent => .missing
  | .text value => .string value
  | .array _ => .other

/-- A signed endpoint: its options, its secret and the tolerance of its verifier. -/
structure Endpoint where
  options : Options
  secret : String
  toleranceMs : Nat

/-- A request passes the hook and then the verification of its signature header. -/
def Endpoint.receive (endpoint : Endpoint) (stores : NonceStores) (request : Request) : Bool × NonceStores :=
  match replayDefenseHook endpoint.options stores request with
  | (.error _,stores) => (false,stores)
  | (.ok _,stores) =>
    (verifyWebhookSignatureSync request.now (.string request.body) request.headerValue endpoint.secret endpoint.toleranceMs
      none none,stores)

theorem blank_no_sign {word : List Char} (blank : Blank word) {c : Char} (visible : isStrWhiteSpace c = false) : c ∉ word := by
  intro listed
  rw [blank c listed] at visible
  cases visible

theorem segmentField_of_trim {segment label value : List Char} (cut : trim segment = label ++ '=' :: value)
    (some_ : label ≠ []) (plain : '=' ∉ label) (edges : trim label = label) :
    segmentField segment = some (label,trim value) := by
  obtain ⟨before,after,blank,blank',whole⟩ := trim_split segment
  have first : '=' ∉ before ++ label := by
    simp only [List.mem_append,not_or]
    exact ⟨blank_no_sign blank (by decide),plain⟩
  have segmentIs : segment = (before ++ label) ++ '=' :: (value ++ after) := by
    rw [whole,cut]
    simp
  have position : segment.idxOf '=' = (before ++ label).length := by
    rw [segmentIs,List.idxOf_append_of_notMem first,List.idxOf_cons_self,Nat.add_zero]
  have inside : ¬ ((before ++ label).length = 0 ∨ (before ++ label).length = segment.length) := by
    have labelSome := List.length_pos_iff.mpr some_
    rw [segmentIs]
    simp only [List.length_append,List.length_cons]
    omega
  have key : segment.take (before ++ label).length = before ++ label := by
    rw [segmentIs]
    exact List.take_left
  have rest : segment.drop ((before ++ label).length + 1) = value ++ after := by
    rw [segmentIs,← List.drop_drop,List.drop_left]
    rfl
  simp only [segmentField,position,inside,↓reduceIte,key,rest,trim_blank_append blank,edges,trim_append_blank blank']

/-- The value of a part behind its label of two characters. -/
def valueOf (part : List Char) : List Char := trim (part.drop 2)

theorem fields_of_read {segments : List (List Char)} {parts found : Parts}
    (read : segments.foldlM Parts.read parts = .ok found) :
    found.timestampPart.map valueOf =
        (parts.timestampPart.map valueOf).or ((segments.filterMap segmentField).lookup ['t']) ∧
      found.noncePart.map valueOf = (parts.noncePart.map valueOf).or ((segments.filterMap segmentField).lookup ['n']) := by
  induction segments generalizing parts with
  | nil =>
    obtain rfl := Except.ok.inj read
    simp
  | cons segment rest ih =>
    rw [List.foldlM_cons] at read
    cases first : parts.read segment with
    | error reason =>
      rw [first] at read
      cases read
    | ok next =>
      rw [first] at read
      obtain ⟨timestamps,nonces⟩ := ih read
      rcases read_cases first with ⟨value,cut,free,rfl⟩ | ⟨value,cut,free,rfl⟩ | ⟨value,cut,free,rfl⟩
      · have field := @segmentField_of_trim segment ['t'] value cut (by decide) (by decide) (by decide)
        simp only [List.filterMap_cons,field]
        exact ⟨by simp [timestamps,free,valueOf],by simp [nonces,List.lookup_cons]⟩
      · have field := @segmentField_of_trim segment ['n'] value cut (by decide) (by decide) (by decide)
        simp only [List.filterMap_cons,field]
        exact ⟨by simp [timestamps,List.lookup_cons],by simp [nonces,free,valueOf]⟩
      · have field := @segmentField_of_trim segment ['v','1'] value cut (by decide) (by decide) (by decide)
        simp only [List.filterMap_cons,field]
        exact ⟨by simp [timestamps,List.lookup_cons],by simp [nonces,List.lookup_cons]⟩

theorem read_trimmed (text : String) (parts : Parts) :
    ((trimmed text).toList.splitOn ',').foldlM Parts.read parts = (text.toList.splitOn ',').foldlM Parts.read parts := by
  obtain ⟨before,after,blank,blank',whole⟩ := trim_split text.toList
  have same : (text.toList.splitOn ',').map trim = ((trim text.toList).splitOn ',').map trim := by
    conv_lhs => rw [whole]
    have comma : isStrWhiteSpace ',' = false := by decide
    exact map_splitOn_between (blank_no_sign blank comma) (blank_no_sign blank' comma)
      (fun _ => trim_blank_append blank) (fun _ => trim_append_blank blank') _
  have reads : ∀ segments : List (List Char), segments.foldlM Parts.read parts = (segments.map trim).foldlM Parts.read parts := by
    intro segments
    rw [List.foldlM_map]
    simp only [read_trim]
  rw [trimmed,String.toList_ofList,reads (text.toList.splitOn ','),same,← reads]

theorem utf16Length_trimmed (text : String) : utf16Length (trimmed text) ≤ utf16Length text := by
  obtain ⟨before,after,_,_,whole⟩ := trim_split text.toList
  have sum := congrArg (fun word => (word.map width).sum) whole
  simp only [List.map_append,List.sum_append] at sum
  rw [utf16Length,utf16Length,trimmed,String.toList_ofList,sum]
  omega

@[simp] theorem trimmed_trimmed (text : String) : trimmed (trimmed text) = trimmed text := by simp [trimmed]

variable {parsed : ParsedWebhookHeader}

theorem fieldOf_parsed {text : String} (parses : parseWebhookSignatureHeader (.string text) = .ok parsed) :
    trimmed ((fieldOf (trimmed text) "n").getD "") = trimmed parsed.nonce ∧
      ∃ digits, fieldOf (trimmed text) "t" = some digits ∧ isDigits digits = true ∧
        parsed.timestamp = decimal digits ∧ 0 < parsed.timestamp ∧ parsed.timestamp ≤ MAX_SAFE_INTEGER := by
  obtain ⟨_,found,read,checked⟩ := parse_ok parses
  obtain ⟨timestampPart,timestampIs,digits,valueIs,positive,safe,nonceIs⟩ := checkParts_ok checked
  rw [← read_trimmed] at read
  obtain ⟨timestamps,nonces⟩ := fields_of_read read
  rw [Option.map_none,Option.none_or] at timestamps nonces
  refine ⟨?_,String.ofList (timestampPart.drop 2),?_,digits,valueIs,positive,safe⟩
  · rw [fieldOf,fields,show "n".toList = ['n'] from rfl,← nonces,nonceIs]
    cases found.noncePart with
    | none => rfl
    | some noncePart => simp [trimmed,valueOf]
  · rw [fieldOf,fields,show "t".toList = ['t'] from rfl,← timestamps,timestampIs]
    have kept : valueOf timestampPart = timestampPart.drop 2 := by
      apply trim_digits
      simpa using (isDigits_iff.mp digits).2
    simp [kept]

theorem extract_parsed {headers : Headers} {text : String} {parsed : ParsedWebhookHeader}
    (raw : headers REPLAY_SIGNATURE_HEADER = .text text)
    (parses : parseWebhookSignatureHeader (.string text) = .ok parsed) :
    extractReplayHeaders headers =
      ((headers.header REPLAY_NONCE_HEADER).or (fieldOf (trimmed text) "n"),
        (headers.header REPLAY_TIMESTAMP_HEADER).or (fieldOf (trimmed text) "t")) := by
  obtain ⟨short,_⟩ := parse_ok parses
  have some_ : trimmed text ≠ "" := by
    intro empty
    obtain ⟨_,digits,field,_⟩ := fieldOf_parsed parses
    rw [empty] at field
    cases field
  have found : headers.header REPLAY_SIGNATURE_HEADER = some (trimmed text) := by simp [Headers.header,raw,some_]
  have fits : utf16Length (trimmed text) ≤ MAX_WEBHOOK_HEADER_LENGTH := Nat.le_trans (utf16Length_trimmed text) short
  simp only [extractReplayHeaders,found,ne_eq,some_,not_false_eq_true,fits,and_self,↓reduceIte]

variable {options : Options}

theorem validate_ok {now : Nat} {nonce timestamp : Option String} {fresh : Fresh}
    (valid : options.validate now nonce timestamp = .ok fresh) :
    fresh.nonce = trimmed (nonce.getD "") ∧ fresh.nonce ≠ "" ∧
      parseTimestamp options.otherNumber timestamp = .millis fresh.timestamp ∧
      withinTolerance now fresh.timestamp options.driftToleranceMs = true := by
  simp only [Options.validate] at valid
  split_ifs at valid with empty long
  cases parsed : parseTimestamp options.otherNumber timestamp with
  | missing => simp [parsed] at valid
  | invalid => simp [parsed] at valid
  | millis value =>
    simp only [parsed] at valid
    by_cases within : withinTolerance now value options.driftToleranceMs
    · rw [if_pos within] at valid
      obtain rfl := Except.ok.inj valid
      exact ⟨rfl,empty,rfl,within⟩
    · rw [if_neg within] at valid
      cases valid

/-- The values that the hook checks, before it takes the nonce. -/
def presented (options : Options) (request : Request) : Except Rejection Fresh :=
  options.validate request.now (extractReplayHeaders request.headers).1 (extractReplayHeaders request.headers).2

theorem hook_rejected {request : Request} {rejection : Rejection} (invalid : presented options request = .error rejection)
    (stores : NonceStores) :
    replayDefenseHook options stores request = (.error ⟨rejection.message,"WEBHOOK_REPLAY_" ++ rejection.reason.text⟩,stores) := by
  rw [presented] at invalid
  simp only [replayDefenseHook,Options.assertFresh,Options.check,invalid]

theorem hook_presented {request : Request} {fresh : Fresh} (valid : presented options request = .ok fresh)
    (stores : NonceStores) :
    (∀ other, (replayDefenseHook options stores request).1 = .ok other ↔
      (checkAndStoreNonce stores request.now request.redis fresh.nonce options.nonceTtlSeconds).1 = true ∧ fresh = other) ∧
    (replayDefenseHook options stores request).2 =
      (checkAndStoreNonce stores request.now request.redis fresh.nonce options.nonceTtlSeconds).2 := by
  rw [presented] at valid
  simp only [replayDefenseHook,Options.assertFresh,Options.check,valid]
  cases taken : (checkAndStoreNonce stores request.now request.redis fresh.nonce options.nonceTtlSeconds).1 with
  | false => simp
  | true => simp

variable {stores : NonceStores}

theorem hook_ok {request : Request} {fresh : Fresh} (passed : (replayDefenseHook options stores request).1 = .ok fresh) :
    presented options request = .ok fresh := by
  cases valid : presented options request with
  | error rejection =>
    rw [hook_rejected valid] at passed
    cases passed
  | ok found => rw [(((hook_presented valid stores).1 fresh).mp passed).2]

/-- The headers beside the signature header repeat what was signed: the nonce, which has no white
    space at its ends, and the timestamp. -/
def Faithful (options : Options) (request : Request) : Prop :=
  ∀ parsed, parseWebhookSignatureHeader request.headerValue = .ok parsed →
    trimmed ((request.headers.header REPLAY_NONCE_HEADER).getD parsed.nonce) = parsed.nonce ∧
      ∀ text, request.headers.header REPLAY_TIMESTAMP_HEADER = some text →
        Number options.otherNumber text = some parsed.timestamp

theorem Number_digits (otherNumber : String → Option Nat) {text : String} (digits : isDigits text = true)
    (positive : 0 < decimal text) (safe : decimal text ≤ MAX_SAFE_INTEGER) :
    Number otherNumber text = some (decimal text) := by
  rw [Number,if_pos ⟨digits,safe⟩,if_neg (by omega)]

theorem parseTimestamp_millis {otherNumber : String → Option Nat} {text : String} {value : Nat}
    (parses : parseTimestamp otherNumber (some text) = .millis value) : Number otherNumber text = some value := by
  simp only [parseTimestamp] at parses
  by_cases empty : text = ""
  · simp [empty] at parses
  · rw [if_neg empty] at parses
    cases number : Number otherNumber text with
    | none => simp [number] at parses
    | some parsed => simpa [number] using parses

theorem presented_signed_iff {request : Request} {fresh : Fresh} (valid : presented options request = .ok fresh)
    (parses : parseWebhookSignatureHeader request.headerValue = .ok parsed) :
    (fresh.nonce = parsed.nonce ∧ fresh.timestamp = parsed.timestamp) ↔ Faithful options request := by
  obtain ⟨text,raw,value⟩ : ∃ text, request.headers REPLAY_SIGNATURE_HEADER = .text text ∧ request.headerValue = .string text := by
    cases raw : request.headers REPLAY_SIGNATURE_HEADER with
    | absent => simp [Request.headerValue,raw,parseWebhookSignatureHeader] at parses
    | text text => exact ⟨text,rfl,by simp [Request.headerValue,raw]⟩
    | array first => simp [Request.headerValue,raw,parseWebhookSignatureHeader] at parses
  have parsesText := value ▸ parses
  obtain ⟨nonceField,digits,timestampField,digitsAre,valueIs,positive,safe⟩ := fieldOf_parsed parsesText
  rw [presented,extract_parsed raw parsesText,timestampField] at valid
  obtain ⟨nonceIs,_,timestampIs,_⟩ := validate_ok valid
  have nonceTaken : fresh.nonce = trimmed ((request.headers.header REPLAY_NONCE_HEADER).getD parsed.nonce) := by
    rw [nonceIs]
    cases request.headers.header REPLAY_NONCE_HEADER with
    | none => rw [Option.none_or,Option.getD_none,nonceField]
    | some nonce => rw [Option.some_or,Option.getD_some,Option.getD_some]
  have timestampTaken : fresh.timestamp = parsed.timestamp ↔
      ∀ text, request.headers.header REPLAY_TIMESTAMP_HEADER = some text →
        Number options.otherNumber text = some parsed.timestamp := by
    cases given : request.headers.header REPLAY_TIMESTAMP_HEADER with
    | none =>
      rw [given,Option.none_or] at timestampIs
      have number := parseTimestamp_millis timestampIs
      rw [Number_digits _ digitsAre (valueIs ▸ positive) (valueIs ▸ safe),← valueIs] at number
      simpa using (Option.some.inj number).symm
    | some text =>
      rw [given,Option.some_or] at timestampIs
      have number := parseTimestamp_millis timestampIs
      simp [number]
  rw [nonceTaken,timestampTaken]
  constructor
  · rintro same other parses'
    obtain rfl : parsed = other := Except.ok.inj (parses.symm.trans parses')
    exact same
  · intro faithful
    exact faithful parsed parses

theorem receive_stores (endpoint : Endpoint) (stores : NonceStores) (request : Request) :
    (endpoint.receive stores request).2 = (replayDefenseHook endpoint.options stores request).2 := by
  unfold Endpoint.receive
  cases passed : replayDefenseHook endpoint.options stores request with
  | mk result after =>
    cases result with
    | error reason => rfl
    | ok fresh => rfl

theorem receive_accepted {endpoint : Endpoint} {request : Request} (accepted : (endpoint.receive stores request).1 = true) :
    (∃ fresh, (replayDefenseHook endpoint.options stores request).1 = .ok fresh) ∧
      verifyWebhookSignatureSync request.now (.string request.body) request.headerValue endpoint.secret endpoint.toleranceMs
        none none = true := by
  unfold Endpoint.receive at accepted
  cases passed : replayDefenseHook endpoint.options stores request with
  | mk result after =>
    cases result with
    | error reason =>
      rw [passed] at accepted
      cases accepted
    | ok fresh =>
      rw [passed] at accepted
      exact ⟨⟨fresh,rfl⟩,accepted⟩

/-- The signature header parses to fields that its signature covers, together with the body. -/
def Endpoint.Covers (endpoint : Endpoint) (request : Request) (parsed : ParsedWebhookHeader) : Prop :=
  parseWebhookSignatureHeader request.headerValue = .ok parsed ∧
    safeTimingSafeEqual parsed.signature
      (computeLocalHmacSignature (buildWebhookDataToSign request.body parsed.timestamp parsed.nonce) endpoint.secret) = true

theorem covers_of_verified {endpoint : Endpoint} {request : Request}
    (verified : verifyWebhookSignatureSync request.now (.string request.body) request.headerValue endpoint.secret
      endpoint.toleranceMs none none = true) : ∃ parsed, endpoint.Covers request parsed := by
  unfold verifyWebhookSignatureSync at verified
  cases valid : validatePayload (.string request.body) with
  | error reason => simp [valid] at verified
  | ok payload =>
    obtain rfl := validatePayload_string valid
    cases parses : parseWebhookSignatureHeader request.headerValue with
    | error reason => simp [valid,parses] at verified
    | ok parsed =>
      refine ⟨parsed,parses,?_⟩
      simp only [valid,parses,parseSecondary,verifyParsedSignatureSet] at verified
      cases primary : verifyParsedSignature request.now request.body parsed endpoint.secret endpoint.toleranceMs none with
      | false => simp [primary] at verified
      | true =>
        simp only [verifyParsedSignature,effectiveNonce_none,generateWebhookSignature] at primary
        split_ifs at primary with away equal legacy
        · exact equal
        · -- The legacy signature is the one without a nonce.
          rw [legacy.1]
          exact primary

def Request.check (options : Options) (request : Request) : Option (Check String) :=
  match presented options request with
  | .error _ => none
  | .ok fresh => some ⟨NONCE_PREFIX ++ fresh.nonce,request.now,options.nonceTtlSeconds * 1000⟩

theorem check_presented {request : Request} {c : Check String} (checks : request.check options = some c) :
    ∃ fresh, presented options request = .ok fresh ∧ fresh.nonce ≠ "" ∧
      c = ⟨NONCE_PREFIX ++ fresh.nonce,request.now,options.nonceTtlSeconds * 1000⟩ := by
  unfold Request.check at checks
  cases valid : presented options request with
  | error rejection => simp [valid] at checks
  | ok fresh =>
    rw [valid] at checks
    exact ⟨fresh,rfl,(validate_ok valid).2.1,(Option.some.inj checks).symm⟩

theorem receive_keepsMarks {endpoint : Endpoint} {degraded : Bool} {request : Request}
    (answered : AnsweredBy degraded request.redis) :
    KeepsMarks endpoint.receive (expiries degraded) (Request.check endpoint.options) request := by
  constructor
  · intro stores none_
    cases valid : presented endpoint.options request with
    | error rejection => rw [receive_stores,hook_rejected valid]
    | ok fresh => simp [Request.check,valid] at none_
  · intro stores c checks lives
    obtain ⟨fresh,valid,_,rfl⟩ := check_presented checks
    obtain ⟨refused,kept⟩ := @check_live degraded stores _ endpoint.options.nonceTtlSeconds _ _ answered lives
    obtain ⟨passes,left⟩ := hook_presented valid stores
    refine ⟨?_,by rw [receive_stores,left,kept]⟩
    rw [← Bool.not_eq_true]
    intro accepted
    obtain ⟨⟨other,passed⟩,_⟩ := receive_accepted accepted
    have taken := ((passes other).mp passed).1
    rw [refused] at taken
    cases taken
  · intro stores c checks gone
    obtain ⟨fresh,valid,some_,rfl⟩ := check_presented checks
    rw [receive_stores,(hook_presented valid stores).2]
    exact (check_gone answered some_ gone).2

theorem accepted_iff_faithful {endpoint : Endpoint} {request : Request}
    (accepted : (endpoint.receive stores request).1 = true) :
    ∃ fresh parsed, (replayDefenseHook endpoint.options stores request).1 = .ok fresh ∧ endpoint.Covers request parsed ∧
      ((fresh.nonce = parsed.nonce ∧ fresh.timestamp = parsed.timestamp) ↔ Faithful endpoint.options request) := by
  obtain ⟨⟨fresh,passed⟩,verified⟩ := receive_accepted accepted
  obtain ⟨parsed,covers⟩ := covers_of_verified verified
  exact ⟨fresh,parsed,passed,covers,presented_signed_iff (hook_ok passed) covers.1⟩

theorem accepted_check {endpoint : Endpoint} {request : Request} (accepted : (endpoint.receive stores request).1 = true)
    (faithful : Faithful endpoint.options request) :
    ∃ parsed, parseWebhookSignatureHeader request.headerValue = .ok parsed ∧
      request.check endpoint.options =
        some ⟨NONCE_PREFIX ++ parsed.nonce,request.now,endpoint.options.nonceTtlSeconds * 1000⟩ ∧
      withinTolerance request.now parsed.timestamp endpoint.options.driftToleranceMs = true := by
  obtain ⟨fresh,parsed,passed,covers,taken⟩ := accepted_iff_faithful accepted
  obtain ⟨nonceIs,timestampIs⟩ := taken.mpr faithful
  have valid := hook_ok passed
  have within := (validate_ok valid).2.2.2
  refine ⟨parsed,covers.1,?_,timestampIs ▸ within⟩
  simp only [Request.check,valid,nonceIs]

/-- In every run, an accepted request has its signed nonce and timestamp taken exactly where its other headers repeat them. In a run of
    such requests on one store, with marks that outlive twice the drift, no signature header is accepted twice. -/
theorem signed_taken_once (endpoint : Endpoint) (requests : List Request) (start : NonceStores) :
    (∀ t ∈ history endpoint.receive start requests, t.answer = true →
      ∃ fresh parsed, (replayDefenseHook endpoint.options t.before t.input).1 = .ok fresh ∧ endpoint.Covers t.input parsed ∧
        ((fresh.nonce = parsed.nonce ∧ fresh.timestamp = parsed.timestamp) ↔ Faithful endpoint.options t.input)) ∧
    ∀ degraded, (∀ request ∈ requests, AnsweredBy degraded request.redis) →
      2 * endpoint.options.driftToleranceMs < endpoint.options.nonceTtlSeconds * 1000 →
      (∀ request ∈ requests, Faithful endpoint.options request) →
      (history endpoint.receive start requests).Pairwise fun t u => t.answer = true → u.answer = true →
        t.input.headers REPLAY_SIGNATURE_HEADER ≠ u.input.headers REPLAY_SIGNATURE_HEADER := by
  constructor
  · intro t member accepted
    obtain ⟨before,request,rfl⟩ := mem_history member
    simp only [transition] at accepted ⊢
    exact accepted_iff_faithful accepted
  · intro degraded answered outlives faithful
    refine (passes_apart (fun request listed => receive_keepsMarks (answered request listed)) start).imp_of_mem ?_
    intro t u first second apart accepted accepted' same
    obtain ⟨past,request,rfl⟩ := mem_history first
    obtain ⟨past',request',rfl⟩ := mem_history second
    simp only [transition] at apart accepted accepted' same
    have value : request.headerValue = request'.headerValue := by rw [Request.headerValue,same,← Request.headerValue]
    obtain ⟨parsed,parses,checks,within⟩ := accepted_check accepted (faithful _ (input_mem_of_history first))
    obtain ⟨parsed',parses',checks',within'⟩ := accepted_check accepted' (faithful _ (input_mem_of_history second))
    rw [value,parses'] at parses
    obtain rfl : parsed' = parsed := Except.ok.inj parses
    have later := apart _ _ checks checks' accepted accepted' rfl
    rw [withinTolerance,decide_eq_true_eq] at within within'
    simp only at later
    omega

def defaults : Options := ⟨REPLAY_DRIFT_TOLERANCE_MS,REPLAY_NONCE_TTL_SECONDS,fun _ => none⟩
def endpoint : Endpoint := ⟨defaults,"s",DEFAULT_DRIFT_TOLERANCE_MS⟩
def signatureHeader : String := (generateWebhookSignature "p" "s" 1000000 "n").headerValue

def signedRequest (now : Nat) (nonceHeader : RawHeader) : Request :=
  ⟨now,fun name => if name = REPLAY_SIGNATURE_HEADER then .text signatureHeader
    else if name = REPLAY_NONCE_HEADER then nonceHeader else .absent,"p",.ok⟩

theorem signedRequest_parses (now : Nat) (nonceHeader : RawHeader) :
    parseWebhookSignatureHeader (signedRequest now nonceHeader).headerValue =
      .ok ⟨1000000,"n",(generateWebhookSignature "p" "s" 1000000 "n").signature⟩ :=
  parse_generated ⟨by decide,by decide⟩ ⟨by decide,by decide,by decide,by decide⟩ "p" "s"

theorem signedRequest_verified {now : Nat} (within : withinTolerance now 1000000 DEFAULT_DRIFT_TOLERANCE_MS = true)
    (nonceHeader : RawHeader) :
    verifyWebhookSignatureSync now (.string "p") (signedRequest now nonceHeader).headerValue "s" DEFAULT_DRIFT_TOLERANCE_MS
      none none = true :=
  sync_generated within (by decide) (signedRequest_parses now nonceHeader)

theorem signedRequest_faithful (now : Nat) : Faithful defaults (signedRequest now .absent) := by
  intro parsed parses
  rw [signedRequest_parses] at parses
  obtain rfl := Except.ok.inj parses
  refine ⟨(by decide : trimmed "n" = "n"),?_⟩
  intro text given
  cases given

theorem signed_taken_once_pair :
    (∀ request ∈ [signedRequest 1000001 .absent,signedRequest 1000002 .absent], Faithful defaults request) ∧
      (history endpoint.receive .start [signedRequest 1000001 .absent,signedRequest 1000002 .absent]).map
        (·.answer) ≠ [true,true] := by
  have faithful : ∀ request ∈ [signedRequest 1000001 .absent,signedRequest 1000002 .absent], Faithful defaults request := by
    simp only [List.mem_cons,List.not_mem_nil,or_false,forall_eq_or_imp,forall_eq]
    exact ⟨signedRequest_faithful _,signedRequest_faithful _⟩
  have answered : ∀ request ∈ [signedRequest 1000001 .absent,signedRequest 1000002 .absent],
      AnsweredBy false request.redis := by
    simp [signedRequest,AnsweredBy,Outcome.error]
  refine ⟨faithful,?_⟩
  intro accepted
  have once := (signed_taken_once endpoint _ .start).2 false answered (by decide) faithful
  have same : (signedRequest 1000001 .absent).headers REPLAY_SIGNATURE_HEADER =
      (signedRequest 1000002 .absent).headers REPLAY_SIGNATURE_HEADER := rfl
  simp only [history_cons,history_nil,List.map_cons,List.map_nil,List.cons.injEq,and_true] at accepted
  simp only [history_cons,history_nil,List.pairwise_cons,List.mem_singleton,forall_eq] at once
  exact once.1 accepted.1 accepted.2 same

theorem receive_presented {endpoint : Endpoint} {request : Request} {fresh : Fresh}
    (valid : presented endpoint.options request = .ok fresh)
    (verified : verifyWebhookSignatureSync request.now (.string request.body) request.headerValue endpoint.secret
      endpoint.toleranceMs none none = true) (stores : NonceStores) :
    endpoint.receive stores request =
      checkAndStoreNonce stores request.now request.redis fresh.nonce endpoint.options.nonceTtlSeconds := by
  rw [presented] at valid
  unfold Endpoint.receive replayDefenseHook Options.assertFresh Options.check
  cases taken : checkAndStoreNonce stores request.now request.redis fresh.nonce endpoint.options.nonceTtlSeconds with
  | mk isFresh after =>
    cases isFresh with
    | false => simp only [valid,taken,Bool.not_false,↓reduceIte]
    | true => simp only [valid,taken,Bool.not_true,Bool.false_eq_true,↓reduceIte,verified]

theorem presented_header {now : Nat} (within : withinTolerance now 1000000 REPLAY_DRIFT_TOLERANCE_MS = true) {nonce : String}
    (some_ : trimmed nonce ≠ "") (short : utf16Length (trimmed nonce) ≤ MAX_NONCE_LENGTH) :
    presented defaults (signedRequest now (.text nonce)) = .ok ⟨trimmed nonce,1000000,(now : Int) - (1000000 : Nat)⟩ := by
  have parses := signedRequest_parses now (.text nonce)
  obtain ⟨_,digits,field,digitsAre,valueIs,positive,safe⟩ := fieldOf_parsed parses
  simp only at valueIs positive safe
  have number := Number_digits defaults.otherNumber digitsAre (valueIs ▸ positive) (valueIs ▸ safe)
  have filled : digits ≠ "" := by
    rintro rfl
    exact absurd digitsAre (by decide)
  have nonceIs : (signedRequest now (.text nonce)).headers.header REPLAY_NONCE_HEADER = some (trimmed nonce) := by
    rw [Headers.header,show (signedRequest now (.text nonce)).headers REPLAY_NONCE_HEADER = .text nonce from rfl]
    exact if_pos some_
  have timestampIs : parseTimestamp defaults.otherNumber (some digits) = .millis 1000000 := by
    rw [parseTimestamp,if_neg filled,number,← valueIs]
  have trimmedIs : String.ofList (trim (trimmed nonce).toList) = trimmed nonce := trimmed_trimmed nonce
  rw [presented,@extract_parsed _ signatureHeader _ rfl parses,nonceIs,
    show (signedRequest now (.text nonce)).headers.header REPLAY_TIMESTAMP_HEADER = none from rfl,Option.none_or,field]
  simp only [Options.validate,Option.some_or,Option.getD_some,trimmedIs,some_,↓reduceIte,Nat.not_lt.mpr short,timestampIs]
  exact if_pos within

/-- One signature header and body are accepted twice, with two nonce headers. -/
theorem signature_replayed :
    (history endpoint.receive .start [signedRequest 1000001 (.text "a"),signedRequest 1000002 (.text "b")]).map
        (·.answer) = [true,true] ∧
      (signedRequest 1000001 (.text "a")).headers REPLAY_SIGNATURE_HEADER =
        (signedRequest 1000002 (.text "b")).headers REPLAY_SIGNATURE_HEADER ∧
      (signedRequest 1000001 (.text "a")).body = (signedRequest 1000002 (.text "b")).body := by
  have first := @presented_header 1000001 (by decide) "a" (by decide) (by decide)
  have second := @presented_header 1000002 (by decide) "b" (by decide) (by decide)
  refine ⟨?_,rfl,rfl⟩
  simp only [history_cons,history_nil,transition,List.map_cons,List.map_nil,
    @receive_presented endpoint _ _ first (signedRequest_verified (by decide) _),
    @receive_presented endpoint _ _ second (signedRequest_verified (by decide) _)]
  decide

end StellarAlerts.ReplayDefense
