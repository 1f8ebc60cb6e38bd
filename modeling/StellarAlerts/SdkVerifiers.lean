import StellarAlerts.ByteTexts
import StellarAlerts.HmacSha256

/-!
The webhook verifiers of the SDKs for Go, Rust and Python. Go reads texts as bytes and
lets its 64-bit integers wrap, Rust may stop at an overflow, and Python has integers of
any size, digits of other scripts and steps that raise.
-/
namespace StellarAlerts.SdkVerifiers
open HexText (toHex)
open HmacSha256
open IntegerText (readDigits)
open Sha256 (utf8)

structure VerificationResult where
  valid : Bool
  error : Option String
deriving DecidableEq, Repr

/-- How a call ends: with a result, or with a panic or an exception. -/
inductive Ended where
  | returned (result : VerificationResult)
  | raised (error : String)
deriving DecidableEq, Repr

def Ended.valid : Ended → Bool
  | .returned result => result.valid
  | .raised _ => false

def driftError (drift toleranceMs : String) : String := s!"Timestamp drift exceeds tolerance: {drift}ms > {toleranceMs}ms"

def isWhiteSpace (c : Char) : Bool :=
  (0x9 ≤ c.toNat && c.toNat ≤ 0xD) || (0x2000 ≤ c.toNat && c.toNat ≤ 0x200A) ||
    [0x20,0x85,0xA0,0x1680,0x2028,0x2029,0x202F,0x205F,0x3000].contains c.toNat

/-- A word without the letters at its ends that `blank` tells. -/
def stripEnds (blank : Char → Bool) (word : List Char) : List Char :=
  ((word.dropWhile blank).reverse.dropWhile blank).reverse

/-- A 64-bit integer after an operation that wraps. -/
def wrap64 (n : Int) : Int := n.bmod (2 ^ 64)

/-- A signed 64-bit integer in decimal, with a sign or without. -/
def parseInt64 (word : List Char) : Option Int :=
  let value :=
    match word with
    | '-' :: digits => (readDigits 10 digits).map fun n => -(n : Int)
    | '+' :: digits => (readDigits 10 digits).map Int.ofNat
    | digits => (readDigits 10 digits).map Int.ofNat
  value.filter fun n => wrap64 n == n

namespace Go

/-- The encodings of white space. -/
def spaces : List (List UInt8) :=
  [[0x9],[0xA],[0xB],[0xC],[0xD],[0x20],[0xC2,0x85],[0xC2,0xA0],[0xE1,0x9A,0x80],[0xE2,0x80,0x80],[0xE2,0x80,0x81],
    [0xE2,0x80,0x82],[0xE2,0x80,0x83],[0xE2,0x80,0x84],[0xE2,0x80,0x85],[0xE2,0x80,0x86],[0xE2,0x80,0x87],
    [0xE2,0x80,0x88],[0xE2,0x80,0x89],[0xE2,0x80,0x8A],[0xE2,0x80,0xA8],[0xE2,0x80,0xA9],[0xE2,0x80,0xAF],
    [0xE2,0x81,0x9F],[0xE3,0x80,0x80]]

/-- A word behind the encodings that it begins with, at most `rounds` of them. -/
def dropSpaces (encodings : List (List UInt8)) : Nat → List UInt8 → List UInt8
  | 0, word => word
  | rounds + 1, word =>
    match encodings.find? fun space => space.isPrefixOf word with
    | none => word
    | some space => dropSpaces encodings rounds (word.drop space.length)

/-- `strings.TrimSpace`. -/
def TrimSpace (word : List UInt8) : List UInt8 :=
  let left := dropSpaces spaces word.length word
  (dropSpaces (spaces.map List.reverse) left.length left.reverse).reverse

/-- `strings.HasPrefix`. -/
def HasPrefix (word : List UInt8) (start : String) : Bool := (utf8 start).isPrefixOf word

/-- `strconv.ParseInt(word,10,64)`; none where there is an error. -/
def ParseInt (word : List UInt8) : Option Int := parseInt64 (word.map fun b => Char.ofNat b.toNat)

/-- One round of the loop over the parts, with the timestamp and the signature so far. -/
def readPart (found : Int × List UInt8) (part : List UInt8) : Except String (Int × List UInt8) :=
  let part := TrimSpace part
  if HasPrefix part "t=" then
    match ParseInt (part.drop 2) with
    | none => .error "invalid timestamp"
    | some ts => .ok (ts,found.2)
  else if HasPrefix part "v1=" then .ok (found.1,part.drop 3)
  else .ok found

def parseSignatureHeader (header : List UInt8) : Except String (Int × List UInt8) :=
  match (header.splitOn 0x2C).foldlM readPart (0,[]) with
  | .error err => .error err
  | .ok (timestamp,signature) =>
    if timestamp = 0 ∨ signature = [] then .error "invalid signature header format" else .ok (timestamp,signature)

/-- The least integer is its own negative. -/
def abs (x : Int) : Int := if x < 0 then wrap64 (-x) else x

structure Verifier where
  secret : List UInt8
  toleranceMs : Int

/-- What `Verify` is given, and the clock then. -/
structure Call where
  payload : List UInt8
  signatureHeader : List UInt8
  nonce : List UInt8
  currentTime : Int
deriving DecidableEq, Repr

def signingPayload (payload : List UInt8) (timestamp : Int) (nonce : List UInt8) : List UInt8 :=
  utf8 (toString timestamp) ++ utf8 "." ++ nonce ++ utf8 "." ++ payload
def Verifier.sign (v : Verifier) (payload : List UInt8) (timestamp : Int) (nonce : List UInt8) : List UInt8 :=
  utf8 (toHex (hmac v.secret (signingPayload payload timestamp nonce)))

/-- The bound of the drift in `Verify`; none where it is kept. -/
def Verifier.checkDrift (v : Verifier) (call : Call) (timestamp : Int) : Option VerificationResult :=
  let drift := abs (wrap64 (call.currentTime - timestamp))
  if v.toleranceMs < drift then some ⟨false,some (driftError (toString drift) (toString v.toleranceMs))⟩ else none

/-- The end of `Verify`. -/
def Verifier.checkSignature (v : Verifier) (call : Call) (timestamp : Int) (signature : List UInt8) : VerificationResult :=
  let expectedSignature := v.sign call.payload timestamp call.nonce
  if signature ≠ expectedSignature then ⟨false,some "Invalid HMAC signature"⟩ else ⟨true,none⟩

def Verifier.Verify (v : Verifier) (seenNonces : List (List UInt8)) (call : Call) :
    VerificationResult × List (List UInt8) :=
  match parseSignatureHeader call.signatureHeader with
  | .error err => (⟨false,some err⟩,seenNonces)
  | .ok (timestamp,signature) =>
    match v.checkDrift call timestamp with
    | some refused => (refused,seenNonces)
    | none =>
      if call.nonce ≠ [] ∧ call.nonce ∈ seenNonces then
        (⟨false,some "Replay attack detected: nonce already used"⟩,seenNonces)
      else
        -- The nonce is marked before the signature is looked at.
        (v.checkSignature call timestamp signature,if call.nonce ≠ [] then seenNonces ++ [call.nonce] else seenNonces)

theorem Verify_mismatch {v : Verifier} {payload header nonce : List UInt8} {now : Int} {seen : List (List UInt8)} {timestamp : Int}
    {signature : List UInt8} (parsed : parseSignatureHeader header = .ok (timestamp,signature))
    (inTime : v.checkDrift ⟨payload,header,nonce,now⟩ timestamp = none) (fresh : nonce ∉ seen)
    (differs : signature ≠ v.sign payload timestamp nonce) :
    (v.Verify seen ⟨payload,header,nonce,now⟩).1 = ⟨false,some "Invalid HMAC signature"⟩ := by
  simp [Verifier.Verify,Verifier.checkSignature,parsed,inTime,fresh,differs]

end Go

namespace Rust

/-- One round of the loop over the parts. -/
def readPart (found : Option Int × Option String) (part : List Char) : Except String (Option Int × Option String) :=
  let part := stripEnds isWhiteSpace part
  if "t=".toList.isPrefixOf part then
    match parseInt64 (part.drop 2) with
    | none => .error "Invalid timestamp"
    | some ts => .ok (some ts,found.2)
  else if "v1=".toList.isPrefixOf part then .ok (found.1,some (String.ofList (part.drop 3)))
  else .ok found

def parseSignatureHeader (header : String) : Except String (Int × String) :=
  match (header.toList.splitOn ',').foldlM readPart (none,none) with
  | .error e => .error e
  | .ok (some timestamp,some signature) => .ok (timestamp,signature)
  | .ok _ => .error "Invalid signature header format"

/-- What the build and the standard library add: whether overflows panic, and the texts of bytes that are no UTF-8. -/
structure Platform where
  overflowChecks : Bool
  from_utf8_lossy : List UInt8 → String

/-- The result of an operation on 64-bit integers. -/
def Platform.fit (platform : Platform) (overflow : String) (n : Int) : Except String Int :=
  if wrap64 n ≠ n ∧ platform.overflowChecks then .error overflow else .ok (wrap64 n)

/-- `(current_timestamp - timestamp).abs()`. -/
def Platform.drift (platform : Platform) (currentTimestamp timestamp : Int) : Except String Int :=
  match platform.fit "attempt to subtract with overflow" (currentTimestamp - timestamp) with
  | .error panic => .error panic
  | .ok difference =>
    if difference < 0 then platform.fit "attempt to negate with overflow" (-difference) else .ok difference

structure WebhookVerifier where
  secret : String
  toleranceMs : Int

/-- What `verify` is given, and the milliseconds of the clock, none before its epoch. -/
structure Call where
  payload : List UInt8
  signatureHeader : String
  nonce : Option String
  now : Option Nat
deriving DecidableEq, Repr

def WebhookVerifier.signingPayload (platform : Platform) (payload : List UInt8) (timestamp : Int) (nonce : Option String) :
    String :=
  let nonce := nonce.getD ""
  let text := ByteTexts.utf8Text platform.from_utf8_lossy payload
  s!"{timestamp}.{nonce}.{text}"

def WebhookVerifier.sign (v : WebhookVerifier) (platform : Platform) (payload : List UInt8) (timestamp : Int)
    (nonce : Option String) : String :=
  toHex (hmac (utf8 v.secret) (utf8 (signingPayload platform payload timestamp nonce)))

/-- The bound of the drift in `verify`; none where it is kept. -/
def WebhookVerifier.boundDrift (v : WebhookVerifier) : Except String Int → Option Ended
  | .error panic => some (.raised panic)
  | .ok drift =>
    if v.toleranceMs < drift then
      some (.returned ⟨false,some (driftError (toString drift) (toString v.toleranceMs))⟩)
    else none

def WebhookVerifier.checkDrift (v : WebhookVerifier) (platform : Platform) (call : Call) (timestamp : Int) : Option Ended :=
  match call.now with
  | none => some (.returned ⟨false,some "Failed to get current timestamp"⟩)
  | some duration => v.boundDrift (platform.drift (wrap64 duration) timestamp)

/-- The end of `verify`. -/
def WebhookVerifier.checkSignature (v : WebhookVerifier) (platform : Platform) (call : Call) (timestamp : Int)
    (signature : String) : VerificationResult :=
  let expectedSignature := v.sign platform call.payload timestamp call.nonce
  if signature ≠ expectedSignature then ⟨false,some "Invalid HMAC signature"⟩ else ⟨true,none⟩

def WebhookVerifier.verify (v : WebhookVerifier) (platform : Platform) (seenNonces : List String) (call : Call) :
    Ended × List String :=
  match parseSignatureHeader call.signatureHeader with
  | .error e => (.returned ⟨false,some e⟩,seenNonces)
  | .ok (timestamp,signature) =>
    match v.checkDrift platform call timestamp with
    | some refused => (refused,seenNonces)
    | none =>
      if call.nonce.any (· ∈ seenNonces) then
        (.returned ⟨false,some "Replay attack detected: nonce already used"⟩,seenNonces)
      else
        -- An empty nonce that is given is marked as any other.
        (.returned (v.checkSignature platform call timestamp signature),seenNonces ++ call.nonce.toList)

end Rust

namespace Python

/-- The limit on the digits of texts that are read and written as integers, none where there
    is no limit, and the digits that the Unicode database knows beyond ASCII. -/
structure Interpreter where
  maxStrDigits : Option Nat
  threshold : ∀ limit ∈ maxStrDigits, 640 ≤ limit
  decimal : Char → Option Nat

/-- What `str.strip` takes away: white space and the four separators of ASCII. -/
def isSpace (c : Char) : Bool := isWhiteSpace c || (0x1C ≤ c.toNat && c.toNat ≤ 0x1F)

variable (python : Interpreter)

def Interpreter.digit (c : Char) : Option Nat :=
  if c.isDigit then some (c.toNat - '0'.toNat) else if c.toNat < 128 then none else python.decimal c

/-- Digits with single underscores between them. -/
def Interpreter.readInt (word : List Char) : Option Nat :=
  let groups := word.splitOn '_'
  if [] ∈ groups then none
  else
    match groups.flatten.mapM python.digit with
    | none => none
    | some digits =>
      if python.maxStrDigits.any (· < digits.length) then none
      else some (digits.foldl (fun value digit => 10 * value + digit) 0)

/-- `int(text)`; none where it raises a ValueError. -/
def Interpreter.int (text : List Char) : Option Int :=
  match stripEnds isWhiteSpace text with
  | '-' :: digits => (python.readInt digits).map fun n => -(n : Int)
  | '+' :: digits => (python.readInt digits).map Int.ofNat
  | digits => (python.readInt digits).map Int.ofNat

/-- `str(n)`. -/
def Interpreter.str (n : Int) : Except String String :=
  if python.maxStrDigits.any (· < (toString n.natAbs).toList.length) then .error "ValueError" else .ok (toString n)

/-- One round of the loop over the parts; none where an exception ends it. -/
def Interpreter.readPart (found : Option Int × Option String) (part : List Char) : Option (Option Int × Option String) :=
  let part := stripEnds isSpace part
  if "t=".toList.isPrefixOf part then (python.int (part.drop 2)).map fun timestamp => (some timestamp,found.2)
  else if "v1=".toList.isPrefixOf part then some (found.1,some (String.ofList (part.drop 3)))
  else some found

def Interpreter.parseSignatureHeader (header : String) : Option (Int × String) :=
  match (header.toList.splitOn ',').foldlM python.readPart (none,none) with
  | some (some timestamp,some signature) => some (timestamp,signature)
  | _ => none

structure WebhookVerifier where
  secret : String
  toleranceMs : Int

/-- What `verify` is given, and the milliseconds of the clock. -/
structure Call where
  payload : List UInt8
  signatureHeader : String
  nonce : Option String
  currentTimestampMs : Option Int
  time : Int
deriving DecidableEq, Repr

def Call.now (call : Call) : Int := call.currentTimestampMs.getD call.time

/-- The nonce, if it is given and not empty. -/
def Call.truthyNonce (call : Call) : Option String := call.nonce.filter (· ≠ "")

def Interpreter.signingPayload (payload : List UInt8) (timestamp : Int) (nonce : Option String) : Except String String :=
  match python.str timestamp, String.fromUTF8? payload.toByteArray with
  | .error e, _ => .error e
  | .ok _, none => .error "UnicodeDecodeError"
  | .ok timestamp, some text =>
    let nonce := nonce.getD ""
    .ok s!"{timestamp}.{nonce}.{text}"

def WebhookVerifier.sign (v : WebhookVerifier) (payload : List UInt8) (timestamp : Int) (nonce : Option String) :
    Except String String :=
  match python.signingPayload payload timestamp nonce with
  | .error e => .error e
  | .ok signingPayload => .ok (toHex (hmac (utf8 v.secret) (utf8 signingPayload)))

/-- `hmac.compare_digest`; it raises a TypeError for texts beyond ASCII. -/
def compareDigest (a b : String) : Except String Bool :=
  if (a.toList ++ b.toList).any (128 ≤ ·.toNat) then .error "TypeError" else .ok (a == b)

/-- The bound of the drift in `verify`; none where it is kept. -/
def WebhookVerifier.checkDrift (v : WebhookVerifier) (call : Call) (timestamp : Int) : Option Ended :=
  let drift : Int := (call.now - timestamp).natAbs
  if v.toleranceMs < drift then
    match python.str drift, python.str v.toleranceMs with
    | .error e, _ => some (.raised e)
    | .ok _, .error e => some (.raised e)
    | .ok drift, .ok toleranceMs => some (.returned ⟨false,some (driftError drift toleranceMs)⟩)
  else none

/-- The end of `verify`. -/
def WebhookVerifier.checkSignature (v : WebhookVerifier) (call : Call) (timestamp : Int) (signature : String) : Ended :=
  match v.sign python call.payload timestamp call.nonce with
  | .error e => .raised e
  | .ok expectedSignature =>
    match compareDigest signature expectedSignature with
    | .error e => .raised e
    | .ok same => if !same then .returned ⟨false,some "Invalid HMAC signature"⟩ else .returned ⟨true,none⟩

def WebhookVerifier.verify (v : WebhookVerifier) (seenNonces : List String) (call : Call) : Ended × List String :=
  match python.parseSignatureHeader call.signatureHeader with
  | none => (.returned ⟨false,some "Invalid signature header format"⟩,seenNonces)
  | some (timestamp,signature) =>
    match v.checkDrift python call timestamp with
    | some refused => (refused,seenNonces)
    | none =>
      if call.truthyNonce.any (· ∈ seenNonces) then
        (.returned ⟨false,some "Replay attack detected: nonce already used"⟩,seenNonces)
      else
        -- What raises from here on raises behind the mark of the nonce.
        (v.checkSignature python call timestamp signature,seenNonces ++ call.truthyNonce.toList)

end Python

end StellarAlerts.SdkVerifiers
