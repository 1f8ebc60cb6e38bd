import StellarAlerts.ByteTexts
import StellarAlerts.JsonTexts
import StellarAlerts.SeparatedText
import StellarAlerts.StrKey

/-!
The challenges that a wallet signs before rules are changed. An object is bound to what
was signed exactly if no challenge has its message, or it is a challenge itself and its
fields can be read back from the message (`bound_iff`).
-/
namespace StellarAlerts.RuleSignatures
open ByteTexts (toBase64 fromBase64 fromBase64_toBase64)
open IntegerText (trim isDigits isDigits_iff decimal decimal_toString)
open JsonTexts (Json)
open Numbers SeparatedText
open Sha256 (utf8 utf8_injective)
open StrKey (base32Decode decodeStrKey)

/-! ### Times -/

/-- `a - b`, without rounding. -/
def minus : Number → Number → Number
  | .finite a, .finite b => .finite (a - b)
  | .infinite negative, .finite _ => .infinite negative
  | .finite _, .infinite negative => .infinite !negative
  | .infinite negative, .infinite negative' => if negative = negative' then .nan else .infinite negative
  | _, _ => .nan

/-- `Math.abs(n)`. -/
def abs : Number → Number
  | .nan => .nan
  | .infinite _ => .infinite false
  | .finite q => .finite |q|

/-! ### Challenges -/

/-- The texts of numbers, of values, and the bytes of base64 texts; none where `atob` throws. -/
structure Platform where
  ofNumber : Number → String
  ofNumber_injective : Function.Injective ofNumber
  ofNumber_plain : ∀ n, '|' ∉ (ofNumber n).toList
  toString36 : Number → String
  stringify : Json → String
  base64ToBytes : String → Option (List UInt8)
  base64_read : ∀ bytes, base64ToBytes (toBase64 bytes) = some bytes

structure RuleMutationChallenge where
  action : String
  publicKey : String
  timestamp : Number
  nonce : String
  payloadHash : String
  message : String
deriving DecidableEq

/-- `(h >>> 0).toString(16).padStart(8,'0')`. -/
def hex8 (h : BitVec 32) : List Char :=
  let word := Nat.toDigits 16 h.toNat
  List.replicate (8 - word.length) '0' ++ word

def mixed (h1 h2 : BitVec 32) : BitVec 32 :=
  ((h1 ^^^ (h1 >>> 16)) * 2246822507#32) ^^^ ((h2 ^^^ (h2 >>> 13)) * 3266489909#32)

/-- On words of 32 bits; the second word is mixed with the first one as it is then. -/
def simplePayloadDigest (p : Platform) (payload : Json) : String :=
  let serialized := Utf16Text.encode (p.stringify (match payload with | .null => .object [] | other => other)).toList
  let length := BitVec.ofNat 32 serialized.length
  let h := serialized.foldl (fun (h : BitVec 32 × BitVec 32) unit =>
    let ch := BitVec.ofNat 32 unit
    ((h.1 ^^^ ch) * 2654435761#32,(h.2 ^^^ ch) * 1597334677#32)) (0xdeadbeef#32 ^^^ length,0x41c6ce57#32 ^^^ length)
  let h1 := mixed h.1 h.2
  let h2 := mixed h.2 h1
  String.ofList (hex8 h2 ++ hex8 h1)

structure ChallengeParams where
  action : String
  payload : Json
  publicKey : String
  timestamp : Option Number
  nonce : Option String

def messageOf (p : Platform) (action publicKey : String) (timestamp : Number) (nonce payloadHash : String) : String :=
  "|".intercalate
    ["stellar-alerts:rule-auth:v1","action=" ++ action,"pubkey=" ++ publicKey,"ts=" ++ p.ofNumber timestamp,
      "nonce=" ++ nonce,"hash=" ++ payloadHash]

def buildRuleChangeChallenge (p : Platform) (params : ChallengeParams) (dateNow : Number) (random : String) :
    RuleMutationChallenge :=
  let timestamp := params.timestamp.getD dateNow
  let nonce := params.nonce.getD (p.toString36 timestamp ++ "-" ++ random)
  let payloadHash := simplePayloadDigest p params.payload
  ⟨params.action,params.publicKey,timestamp,nonce,payloadHash,
    messageOf p params.action params.publicKey timestamp nonce payloadHash⟩

/-! ### Verification -/

def trimmed (text : String) : String := String.ofList (trim text.toList)

/-- None where it throws. -/
def decodeEd25519PublicKeyBytes (publicKey : String) : Option (List UInt8) :=
  match decodeStrKey (.string (trimmed publicKey)) .ed25519PublicKey with
  | .error _ => none
  | .ok _ =>
    match base32Decode (trimmed publicKey) with
    | none => none
    | some decoded => if decoded.length ≠ 35 then none else some ((decoded.drop 1).take 32)

def DEFAULT_CHALLENGE_TTL_MS : Number := .finite (5 * 60 * 1000)

structure VerifyParams where
  publicKey : String
  challenge : RuleMutationChallenge
  signature : String
  now : Option Number
  maxAgeMs : Option Number

/-- The answer of `verifyRuleSignature`. -/
structure Verdict where
  valid : Bool
  reason : Option String
deriving DecidableEq

/-- The check of Ed25519 on a key, a signature and a message; none where it throws. -/
abbrev Ed25519 := List UInt8 → List UInt8 → List UInt8 → Option Bool

def verifyRuleSignature (p : Platform) (verify : Ed25519) (dateNow : Number) (params : VerifyParams) : Verdict :=
  let now := params.now.getD dateNow
  let maxAgeMs := params.maxAgeMs.getD DEFAULT_CHALLENGE_TTL_MS
  if params.signature = "" ∨ trimmed params.signature = "" then ⟨false,some "Missing signature"⟩
  else if params.publicKey = "" ∨ params.publicKey ≠ params.challenge.publicKey then
    ⟨false,some "Public key mismatch with challenge"⟩
  else if maxAgeMs.lt (abs (minus now params.challenge.timestamp)) then ⟨false,some "Challenge timestamp has expired"⟩
  else
    match decodeEd25519PublicKeyBytes params.publicKey with
    | none => ⟨false,some "Invalid Stellar public key"⟩
    | some rawPublicKey =>
      match p.base64ToBytes (trimmed params.signature) with
      | none => ⟨false,some "Malformed base64 signature"⟩
      | some sigBytes =>
        if sigBytes.length ≠ 64 then ⟨false,some "Invalid Ed25519 signature length"⟩
        else
          match verify rawPublicKey sigBytes (utf8 params.challenge.message) with
          | none => ⟨false,some "Signature verification failed"⟩
          | some false => ⟨false,some "Cryptographic signature verification failed"⟩
          | some true => ⟨true,none⟩

/-! ### What is signed -/

variable {p : Platform}

/-- The challenges that `buildRuleChangeChallenge` makes. -/
def Made (p : Platform) (c : RuleMutationChallenge) : Prop :=
  ∃ params dateNow random, c = buildRuleChangeChallenge p params dateNow random

/-- The wallet of a key signed the messages of these challenges and no others, and no other message is taken for one that it signed. -/
structure Unforged (p : Platform) (verify : Ed25519) (key : List UInt8) (signed : List RuleMutationChallenge) : Prop where
  made : ∀ c ∈ signed, Made p c
  verified : ∀ signature message, verify key signature message = some true → ∃ c ∈ signed, utf8 c.message = message

def SameFields (a b : RuleMutationChallenge) : Prop :=
  a.action = b.action ∧ a.publicKey = b.publicKey ∧ a.timestamp = b.timestamp ∧ a.nonce = b.nonce ∧
    a.payloadHash = b.payloadHash

/-- At most so much later, where all of it is finite. -/
def NotLate (now timestamp maxAgeMs : Number) : Prop :=
  ∀ a b m, now = .finite a → timestamp = .finite b → maxAgeMs = .finite m → a ≤ b + m

/-- A signature that is accepted for the challenge is one of a challenge with the same fields, and is not accepted late. -/
def Bound (p : Platform) (challenge : RuleMutationChallenge) : Prop :=
  ∀ verify key signed, decodeEd25519PublicKeyBytes challenge.publicKey = some key → Unforged p verify key signed →
    ∀ params dateNow, params.challenge = challenge → (verifyRuleSignature p verify dateNow params).valid = true →
      ∃ c ∈ signed, SameFields c challenge ∧
        NotLate (params.now.getD dateNow) c.timestamp (params.maxAgeMs.getD DEFAULT_CHALLENGE_TTL_MS)

def Contains (text part : String) : Prop := part.toList <:+: text.toList

/-- No field holds a mark behind which the message could be read in another way. -/
structure Unambiguous (p : Platform) (c : RuleMutationChallenge) : Prop where
  action : ¬ Contains c.action "|pubkey="
  publicKey : ¬ Contains c.publicKey "|pubkey="
  publicKey_time : ∀ n, ¬ Contains c.publicKey ("|ts=" ++ p.ofNumber n ++ "|nonce=")
  nonce : ∀ n, ¬ Contains c.nonce ("|ts=" ++ p.ofNumber n ++ "|nonce=")

theorem hex8_length (h : BitVec 32) : (hex8 h).length = 8 := by
  have short : (Nat.toDigits 16 h.toNat).length ≤ 8 :=
    (Nat.length_toDigits_le_iff (by decide) (by decide)).mpr h.isLt
  simp only [hex8,List.length_append,List.length_replicate]
  omega

theorem digest_length (payload : Json) : (simplePayloadDigest p payload).toList.length = 16 := by
  unfold simplePayloadDigest
  rw [String.toList_ofList,List.length_append,hex8_length,hex8_length]

variable {c : RuleMutationChallenge}

theorem made_iff :
    Made p c ↔ (∃ payload, c.payloadHash = simplePayloadDigest p payload) ∧
      c.message = messageOf p c.action c.publicKey c.timestamp c.nonce c.payloadHash := by
  constructor
  · rintro ⟨params,dateNow,random,rfl⟩
    exact ⟨⟨params.payload,rfl⟩,rfl⟩
  · rintro ⟨⟨payload,hash⟩,message⟩
    refine ⟨⟨c.action,payload,c.publicKey,some c.timestamp,some c.nonce⟩,c.timestamp,"",?_⟩
    obtain ⟨action,publicKey,timestamp,nonce,payloadHash,text⟩ := c
    simp only at hash message
    subst hash message
    rfl

variable {a b : RuleMutationChallenge}

theorem eq_of_fields (fields : SameFields a b) (message : a.message = b.message) : a = b := by
  obtain ⟨action,publicKey,timestamp,nonce,payloadHash⟩ := fields
  cases a
  cases b
  simp_all

/-! ### Reading a message -/

/-- The part of the message between its head and the hash. -/
def body (action publicKey time nonce : List Char) : List Char :=
  action ++ '|' :: ("pubkey=".toList ++ (publicKey ++ '|' :: ("ts=".toList ++ (time ++ '|' :: ("nonce=".toList ++ nonce)))))

theorem messageOf_toList (action publicKey : String) (timestamp : Number) (nonce payloadHash : String) :
    (messageOf p action publicKey timestamp nonce payloadHash).toList =
      "stellar-alerts:rule-auth:v1|action=".toList ++
        (body action.toList publicKey.toList (p.ofNumber timestamp).toList nonce.toList ++
          ("|hash=".toList ++ payloadHash.toList)) := by
  simp [messageOf,body]

def timeMark (time : List Char) : List Char := '|' :: ("ts=".toList ++ (time ++ '|' :: "nonce=".toList))

theorem pubkey_plain : '|' ∉ "pubkey=".toList := by decide
theorem ts_plain : '|' ∉ "ts=".toList := by decide
theorem nonce_plain : '|' ∉ "nonce=".toList := by decide

section Reading
variable {action action' publicKey publicKey' time time' nonce nonce' : List Char}

theorem rest_unique (plain : '|' ∉ time) (plain' : '|' ∉ time') (noTimeKey : ¬ timeMark time' <:+: publicKey)
    (noTime : ¬ timeMark time' <:+: nonce)
    (same : publicKey ++ '|' :: ("ts=".toList ++ (time ++ '|' :: ("nonce=".toList ++ nonce))) =
      publicKey' ++ '|' :: ("ts=".toList ++ (time' ++ '|' :: ("nonce=".toList ++ nonce')))) :
    publicKey = publicKey' ∧ time = time' ∧ nonce = nonce' := by
  rcases marked_cases ts_plain ts_plain same with ⟨keys,rest⟩ | ⟨c,-,rest⟩ | ⟨c,key_is,rest⟩
  · obtain ⟨times,nonces⟩ := cut_at plain plain' (List.append_cancel_left rest)
    exact ⟨keys,times,List.append_cancel_left nonces⟩
  · rcases marked_cases nonce_plain ts_plain rest with ⟨-,marks⟩ | ⟨d,-,nonce_is⟩ | ⟨d,time_is,-⟩
    · simp at marks
    · exact absurd ⟨d,nonce',by simp [nonce_is,timeMark]⟩ noTime
    · exact absurd (by simp [time_is]) plain
  · rcases marked_cases nonce_plain ts_plain rest with ⟨-,marks⟩ | ⟨d,c_is,-⟩ | ⟨d,time_is,-⟩
    · simp at marks
    · exact absurd ⟨publicKey',d,by simp [key_is,c_is,timeMark]⟩ noTimeKey
    · exact absurd (by simp [time_is]) plain'

theorem body_unique (plain : '|' ∉ time) (plain' : '|' ∉ time') (noKey : ¬ "|pubkey=".toList <:+: action)
    (noKeyKey : ¬ "|pubkey=".toList <:+: publicKey) (noTimeKey : ¬ timeMark time' <:+: publicKey)
    (noTime : ¬ timeMark time' <:+: nonce)
    (same : body action publicKey time nonce = body action' publicKey' time' nonce') :
    action = action' ∧ publicKey = publicKey' ∧ time = time' ∧ nonce = nonce' := by
  rcases marked_cases pubkey_plain pubkey_plain same with ⟨actions,rest⟩ | ⟨c,-,rest⟩ | ⟨c,action_is,-⟩
  · exact ⟨actions,rest_unique plain plain' noTimeKey noTime (List.append_cancel_left rest)⟩
  -- the other action goes on behind this one's mark, so a later field holds that mark
  · rcases marked_cases ts_plain pubkey_plain rest with ⟨-,marks⟩ | ⟨d,-,rest⟩ | ⟨d,key_is,-⟩
    · simp at marks
    · rcases marked_cases nonce_plain pubkey_plain rest with ⟨-,marks⟩ | ⟨e,-,nonce_is⟩ | ⟨e,time_is,-⟩
      · simp at marks
      · exact absurd ⟨e ++ '|' :: ("pubkey=".toList ++ publicKey'),nonce',by simp [nonce_is,timeMark]⟩ noTime
      · exact absurd (by simp [time_is]) plain
    · exact absurd ⟨c,d,by simp [key_is]⟩ noKeyKey
  · exact absurd ⟨action',c,by simp [action_is]⟩ noKey

end Reading

theorem timeMark_toList (n : Number) : ("|ts=" ++ p.ofNumber n ++ "|nonce=").toList = timeMark (p.ofNumber n).toList := by
  simp [timeMark]

theorem body_of_message (madeA : Made p a) (madeB : Made p b) (same : a.message = b.message) :
    a.payloadHash = b.payloadHash ∧
      body a.action.toList a.publicKey.toList (p.ofNumber a.timestamp).toList a.nonce.toList =
        body b.action.toList b.publicKey.toList (p.ofNumber b.timestamp).toList b.nonce.toList := by
  obtain ⟨⟨payloadA,hashA⟩,messageA⟩ := made_iff.mp madeA
  obtain ⟨⟨payloadB,hashB⟩,messageB⟩ := made_iff.mp madeB
  have lists := congrArg String.toList same
  rw [messageA,messageB,messageOf_toList,messageOf_toList] at lists
  have parts := List.append_cancel_left lists
  have lengths : ("|hash=".toList ++ a.payloadHash.toList).length = ("|hash=".toList ++ b.payloadHash.toList).length := by
    rw [List.length_append,List.length_append,hashA,hashB,digest_length,digest_length]
  obtain ⟨bodies,hashes⟩ := List.append_inj' parts lengths
  exact ⟨String.toList_injective (List.append_cancel_left hashes),bodies⟩

theorem fields_of_message (madeA : Made p a) (madeB : Made p b) (same : b.message = a.message) (clear : Unambiguous p a) :
    SameFields b a := by
  obtain ⟨hashes,bodies⟩ := body_of_message madeA madeB same.symm
  obtain ⟨actions,keys,times,nonces⟩ := body_unique (p.ofNumber_plain _) (p.ofNumber_plain _) clear.action clear.publicKey
    (by rw [← timeMark_toList]; exact clear.publicKey_time _) (by rw [← timeMark_toList]; exact clear.nonce _) bodies
  exact ⟨String.toList_injective actions.symm,String.toList_injective keys.symm,
    p.ofNumber_injective (String.toList_injective times.symm),String.toList_injective nonces.symm,hashes.symm⟩

def withFields (p : Platform) (c : RuleMutationChallenge) (action publicKey : String) (timestamp : Number) (nonce : String) :
    RuleMutationChallenge :=
  ⟨action,publicKey,timestamp,nonce,c.payloadHash,messageOf p action publicKey timestamp nonce c.payloadHash⟩

theorem withFields_made (made : Made p c) (action publicKey : String) (timestamp : Number) (nonce : String) :
    Made p (withFields p c action publicKey timestamp nonce) :=
  made_iff.mpr ⟨(made_iff.mp made).1,rfl⟩

theorem withFields_message (made : Made p c) {action publicKey nonce : String} {timestamp : Number}
    (same : body action.toList publicKey.toList (p.ofNumber timestamp).toList nonce.toList =
      body c.action.toList c.publicKey.toList (p.ofNumber c.timestamp).toList c.nonce.toList) :
    (withFields p c action publicKey timestamp nonce).message = c.message := by
  apply String.toList_injective
  rw [(made_iff.mp made).2,messageOf_toList,withFields,messageOf_toList,same]

theorem cut_of_contains {text part : String} (contains : Contains text part) :
    ∃ before behind, text = before ++ part ++ behind := by
  obtain ⟨before,behind,parts⟩ := contains
  refine ⟨String.ofList before,String.ofList behind,String.toList_injective ?_⟩
  simp [← parts]

theorem unambiguous_of_fields (made : Made p c)
    (fields : ∀ other, Made p other → other.message = c.message → SameFields other c) : Unambiguous p c := by
  have only : ∀ (action publicKey : String) timestamp (nonce : String),
      body action.toList publicKey.toList (p.ofNumber timestamp).toList nonce.toList =
        body c.action.toList c.publicKey.toList (p.ofNumber c.timestamp).toList c.nonce.toList → publicKey = c.publicKey := by
    intro action publicKey timestamp nonce same
    exact (fields _ (withFields_made made action publicKey timestamp nonce) (withFields_message made same)).2.1
  constructor
  · intro contains
    obtain ⟨before,behind,action_is⟩ := cut_of_contains contains
    have key := only before (behind ++ "|pubkey=" ++ c.publicKey) c.timestamp c.nonce (by simp [body,action_is])
    have lengths := congrArg (fun t => t.toList.length) key
    simp at lengths
    omega
  · intro contains
    obtain ⟨before,behind,key_is⟩ := cut_of_contains contains
    have key := only (c.action ++ "|pubkey=" ++ before) behind c.timestamp c.nonce (by simp [body,key_is])
    have lengths := congrArg (fun t => t.toList.length) (key.trans key_is)
    simp at lengths
    omega
  · intro n contains
    obtain ⟨before,behind,key_is⟩ := cut_of_contains contains
    have key := only c.action before n (behind ++ "|ts=" ++ p.ofNumber c.timestamp ++ "|nonce=" ++ c.nonce)
      (by simp [body,key_is])
    have lengths := congrArg (fun t => t.toList.length) (key.trans key_is)
    simp at lengths
  · intro n contains
    obtain ⟨before,behind,nonce_is⟩ := cut_of_contains contains
    have key := only c.action (c.publicKey ++ "|ts=" ++ p.ofNumber c.timestamp ++ "|nonce=" ++ before) n behind
      (by simp [body,nonce_is])
    have lengths := congrArg (fun t => t.toList.length) key
    simp at lengths

/-! ### What is accepted -/

theorem verified_of_valid {verify : Ed25519} {dateNow : Number} {params : VerifyParams}
    (valid : (verifyRuleSignature p verify dateNow params).valid = true) :
    (params.maxAgeMs.getD DEFAULT_CHALLENGE_TTL_MS).lt (abs (minus (params.now.getD dateNow) params.challenge.timestamp)) =
        false ∧
      ∃ key signature, decodeEd25519PublicKeyBytes params.challenge.publicKey = some key ∧
        verify key signature (utf8 params.challenge.message) = some true := by
  unfold verifyRuleSignature at valid
  dsimp only at valid
  by_cases missing : params.signature = "" ∨ trimmed params.signature = ""
  · rw [if_pos missing] at valid
    cases valid
  by_cases mismatch : params.publicKey = "" ∨ params.publicKey ≠ params.challenge.publicKey
  · rw [if_neg missing,if_pos mismatch] at valid
    cases valid
  by_cases late : (params.maxAgeMs.getD DEFAULT_CHALLENGE_TTL_MS).lt
      (abs (minus (params.now.getD dateNow) params.challenge.timestamp)) = true
  · rw [if_neg missing,if_neg mismatch,if_pos late] at valid
    cases valid
  rw [if_neg missing,if_neg mismatch,if_neg late] at valid
  rw [not_or,not_not] at mismatch
  refine ⟨by simpa using late,?_⟩
  rw [← mismatch.2]
  cases decoded : decodeEd25519PublicKeyBytes params.publicKey with
  | none => simp [decoded] at valid
  | some key =>
    cases read : p.base64ToBytes (trimmed params.signature) with
    | none => simp [decoded,read] at valid
    | some signature =>
      simp only [decoded,read] at valid
      by_cases short : signature.length ≠ 64
      · rw [if_pos short] at valid
        cases valid
      rw [if_neg short] at valid
      cases verified : verify key signature (utf8 params.challenge.message) with
      | none => simp [verified] at valid
      | some accepted =>
        cases accepted with
        | false => simp [verified] at valid
        | true => exact ⟨key,signature,rfl,verified⟩

theorem notLate_of_fresh {now timestamp maxAgeMs : Number} (fresh : maxAgeMs.lt (abs (minus now timestamp)) = false) :
    NotLate now timestamp maxAgeMs := by
  rintro a b m rfl rfl rfl
  have near : |a - b| ≤ m := by simpa [minus,abs,Number.lt] using fresh
  have atMost := le_abs_self (a - b)
  linarith

def zeroBytes : List UInt8 := List.replicate 64 0
theorem zeroBytes_length : zeroBytes.length = 64 := List.length_replicate
def zeroSignature : String := toBase64 zeroBytes
theorem zeroSignature_trimmed : trimmed zeroSignature = zeroSignature ∧ zeroSignature ≠ "" := by decide +kernel

theorem valid_of_verified {verify : Ed25519} {challenge : RuleMutationChallenge} {key : List UInt8}
    (decoded : decodeEd25519PublicKeyBytes challenge.publicKey = some key)
    (verified : verify key zeroBytes (utf8 challenge.message) = some true) (dateNow : Number) :
    (verifyRuleSignature p verify dateNow
      ⟨challenge.publicKey,challenge,zeroSignature,some challenge.timestamp,some (.finite 0)⟩).valid = true := by
  have named : challenge.publicKey ≠ "" := by
    intro empty
    have none : decodeEd25519PublicKeyBytes "" = none := by decide
    rw [empty,none] at decoded
    cases decoded
  have fresh : (Number.finite 0).lt (abs (minus challenge.timestamp challenge.timestamp)) = false := by
    cases challenge.timestamp with
    | nan => rfl
    | infinite negative => cases negative <;> rfl
    | finite q => simp [minus,abs,Number.lt]
  obtain ⟨untrimmed,present⟩ := zeroSignature_trimmed
  have read : p.base64ToBytes zeroSignature = some zeroBytes := p.base64_read _
  simp [verifyRuleSignature,untrimmed,present,named,fresh,decoded,read,zeroBytes_length,verified]

def takes (message : String) : Ed25519 := fun _ _ found => some (found = utf8 message)

theorem unforged_takes (made : Made p c) (key : List UInt8) :
    Unforged p (takes c.message) key [c] where
  made other listed := by
    rw [List.mem_singleton] at listed
    exact listed ▸ made
  verified signature message verified := by
    have same : message = utf8 c.message := by simpa [takes] using verified
    exact ⟨c,List.mem_singleton_self c,same.symm⟩

theorem fields_of_bound {challenge made : RuleMutationChallenge} (bound : Bound p challenge) {key : List UInt8}
    (decoded : decodeEd25519PublicKeyBytes challenge.publicKey = some key) (isMade : Made p made)
    (same : made.message = challenge.message) : SameFields made challenge := by
  have verified : takes made.message key zeroBytes (utf8 challenge.message) = some true := by
    rw [same]
    simp [takes]
  obtain ⟨c,listed,fields,-⟩ := bound _ key [made] decoded (unforged_takes isMade key) _ (.finite 0) rfl
    (valid_of_verified decoded verified (.finite 0))
  rw [List.mem_singleton] at listed
  exact listed ▸ fields

/-- An object is bound exactly if its key is none, no challenge has its message, or it is a challenge and none of its fields holds the
    marks of another reading. Two challenges with different fields have different messages under that same condition. -/
theorem bound_iff (p : Platform) :
    (∀ challenge, Bound p challenge ↔
      decodeEd25519PublicKeyBytes challenge.publicKey = none ∨ (∀ made, Made p made → made.message ≠ challenge.message) ∨
        (Made p challenge ∧ Unambiguous p challenge)) ∧
      ∀ made, Made p made →
        ((∀ other, Made p other → ¬ SameFields other made → other.message ≠ made.message) ↔ Unambiguous p made) := by
  constructor
  · intro challenge
    constructor
    · intro bound
      cases decoded : decodeEd25519PublicKeyBytes challenge.publicKey with
      | none => exact .inl rfl
      | some key =>
        by_cases sole : ∀ made, Made p made → made.message ≠ challenge.message
        · exact .inr (.inl sole)
        · push Not at sole
          obtain ⟨made,isMade,same⟩ := sole
          have challenge_is := eq_of_fields (fields_of_bound bound decoded isMade same) same
          subst challenge_is
          refine .inr (.inr ⟨isMade,unambiguous_of_fields isMade ?_⟩)
          intro other otherMade message
          exact fields_of_bound bound decoded otherMade message
    · rintro cases' verify key signed decoded ⟨allMade,unforged⟩ params dateNow rfl valid
      obtain ⟨fresh,key',signature,decoded',verified⟩ := verified_of_valid valid
      have keys : key' = key := Option.some.inj (decoded'.symm.trans decoded)
      subst keys
      obtain ⟨c,listed,bytes⟩ := unforged _ _ verified
      have message := utf8_injective bytes
      have fields : SameFields c params.challenge := by
        rcases cases' with none | sole | ⟨made,clear⟩
        · rw [none] at decoded
          cases decoded
        · exact absurd message (sole c (allMade c listed))
        · exact fields_of_message made (allMade c listed) message clear
      refine ⟨c,listed,fields,?_⟩
      rw [fields.2.2.1]
      exact notLate_of_fresh fresh
  · intro made isMade
    constructor
    · intro apart
      apply unambiguous_of_fields isMade
      intro other otherMade message
      by_contra differs
      exact apart other otherMade differs message
    · intro clear other otherMade differs message
      exact differs (fields_of_message isMade otherMade message clear)

/-! ### An object that was changed after it was signed -/

/-- Whole numbers in decimal; other fractions by a number of theirs. -/
def numberText : Number → String
  | .nan => "NaN"
  | .infinite negative => if negative then "-Infinity" else "Infinity"
  | .finite q => if q = q.num.toNat then toString q.num.toNat else "r" ++ toString (Encodable.encode q)

def readNumber (text : String) : Number :=
  if isDigits text then .finite (decimal text)
  else if text = "NaN" then .nan
  else if text = "Infinity" then .infinite false
  else if text = "-Infinity" then .infinite true
  else .finite ((Encodable.decode (decimal (String.ofList text.toList.tail))).getD 0)

theorem readNumber_numberText (n : Number) : readNumber (numberText n) = n := by
  cases n with
  | nan => decide
  | infinite negative => cases negative <;> decide
  | finite q =>
    by_cases whole : q = q.num.toNat
    · obtain ⟨digits,value⟩ := decimal_toString q.num.toNat
      rw [numberText,if_pos whole,readNumber,if_pos digits,value,← whole]
    · have first : ("r" ++ toString (Encodable.encode q)).toList = 'r' :: (toString (Encodable.encode q)).toList := by simp
      have noDigits : ¬ isDigits ("r" ++ toString (Encodable.encode q)) = true := by
        intro digits
        have digit := (isDigits_iff.mp digits).2 'r' (by rw [first]; exact List.mem_cons_self ..)
        exact absurd digit (by decide)
      have other : ∀ text : String, text.toList.head? ≠ some 'r' → "r" ++ toString (Encodable.encode q) ≠ text := by
        rintro text head rfl
        exact head (by rw [first]; rfl)
      rw [numberText,if_neg whole,readNumber,if_neg noDigits,if_neg (other _ (by decide)),if_neg (other _ (by decide)),
        if_neg (other _ (by decide)),first,List.tail_cons,String.ofList_toList,(decimal_toString _).2,Encodable.encodek]
      rfl

theorem numberText_plain (n : Number) : '|' ∉ (numberText n).toList := by
  have digits_plain : ∀ k : Nat, '|' ∉ (toString k).toList := by
    intro k listed
    have digit := (isDigits_iff.mp (decimal_toString k).1).2 '|' listed
    exact absurd digit (by decide)
  cases n with
  | nan => decide
  | infinite negative => cases negative <;> decide
  | finite q =>
    by_cases whole : q = q.num.toNat
    · rw [numberText,if_pos whole]
      exact digits_plain _
    · rw [numberText,if_neg whole,String.toList_append,List.mem_append]
      rintro (first | rest)
      · exact absurd first (by decide)
      · exact digits_plain _ rest

/-- A platform with these texts of numbers, for the payload `{}`. -/
def plain : Platform where
  ofNumber := numberText
  ofNumber_injective := Function.LeftInverse.injective readNumber_numberText
  ofNumber_plain := numberText_plain
  toString36 _ := "0"
  stringify _ := "{}"
  base64ToBytes text := some (fromBase64 (fun _ => []) text)
  base64_read bytes := by rw [fromBase64_toBase64]

def walletKey : String := "GAAQEAYEAUDAOCAJBIFQYDIOB4IBCEQTCQKRMFYYDENBWHA5DYPSABOV"
def pauseRule : RuleMutationChallenge :=
  buildRuleChangeChallenge plain ⟨"rule:pause",.object [],walletKey,some (.finite 1700000000000),some "n1"⟩ .nan ""

/-- The same message and signature beside another action and a later time. -/
def deleteRule : RuleMutationChallenge :=
  { pauseRule with action := "rule:delete", timestamp := .finite 1800000000000 }

/-- The wallet signed only the challenge to pause the rule, and its signature is accepted
    for the other action, years later. Also, a mark in an action gives two challenges one message. -/
theorem signature_taken_for_other :
    (∃ key, decodeEd25519PublicKeyBytes walletKey = some key ∧ Unforged plain (takes pauseRule.message) key [pauseRule]) ∧
      (verifyRuleSignature plain (takes pauseRule.message) .nan
        ⟨walletKey,deleteRule,zeroSignature,some (.finite 1800000000000),some (.finite 0)⟩).valid = true ∧
      (¬ ∃ c ∈ [pauseRule], SameFields c deleteRule) ∧
      (buildRuleChangeChallenge plain ⟨"a|pubkey=b",.null,"c",some .nan,some "n1"⟩ .nan "").message =
        (buildRuleChangeChallenge plain ⟨"a",.null,"b|pubkey=c",some .nan,some "n1"⟩ .nan "").message := by
  have decoded : (decodeEd25519PublicKeyBytes walletKey).isSome = true := by decide +kernel
  obtain ⟨key,key_is⟩ := Option.isSome_iff_exists.mp decoded
  refine ⟨⟨key,key_is,unforged_takes ⟨_,_,_,rfl⟩ key⟩,?_,?_,rfl⟩
  · exact @valid_of_verified plain _ deleteRule key key_is (by simp [takes,deleteRule]) .nan
  · rintro ⟨c,listed,fields⟩
    rw [List.mem_singleton] at listed
    subst listed
    exact absurd fields.1 (by decide)

end StellarAlerts.RuleSignatures
