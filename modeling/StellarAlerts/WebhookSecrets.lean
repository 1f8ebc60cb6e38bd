import StellarAlerts.AsciiBytes
import StellarAlerts.Histories
import StellarAlerts.Vault
import StellarAlerts.WebhookSigner

/-!
The signing secrets of webhooks: `addWebhook` and `rotateSecret` draw them, store them
encrypted and hand something out, and `buildDualSignatureHeaders` signs with what the
row holds.
-/
namespace StellarAlerts.WebhookSecrets
open HexText Histories HmacSha256
open IntegerText (isStrWhiteSpace decimal decimal_toString isDigits_iff digit_range hexChar_range)
open OrderedMaps
open Sha256 (CollisionFree collisionFree_mono nodup_of_heads utf8 utf8_injective utf8_ofList)
open UnitTexts Vault WebhookHeader WebhookSigner

def SECRET_ROTATION_GRACE_PERIOD_MS : Nat := 24 * 60 * 60 * 1000

structure EncryptedSecretRow where
  keyVersion : Int
  secretIv : Text
  secretAuthTag : Text
  secretCiphertext : Text

structure WebhookRow where
  userId : String
  url : String
  payloadTemplate : Option String
  secret : EncryptedSecretRow
  previousSecretCiphertext : Option Text
  previousSecretIv : Option Text
  previousSecretAuthTag : Option Text
  previousKeyVersion : Option Int
  previousSecretExpiresAt : Option Nat

/-- The vault, the check of destinations and the Ed25519 signer. -/
structure Service where
  platform : Platform
  config : Config
  validateUrlForSsrf : String → Except Text Unit
  /-- the header value for a payload and a timestamp, or the error that is thrown -/
  signWebhookEd25519 : String → Nat → Except Text String

/-- Random bytes: for a secret, and for an iv. -/
structure Draw where
  bytes : List UInt8
  iv : List UInt8
  bytes_length : bytes.length = 32
  iv_length : iv.length = 12

/-- `crypto.randomBytes(32).toString('hex')`. -/
def Draw.secret (d : Draw) : String := toHex d.bytes

/-- `parseInt(text,10)`; none for NaN. -/
def parseInt10 (text : Text) : Option Int :=
  let word := (toText text).toList.dropWhile isStrWhiteSpace
  let negative := word.head? = some '-'
  let digits := (if negative ∨ word.head? = some '+' then word.tail else word).takeWhile Char.isDigit
  if digits = [] then none
  else some (if negative then -(decimal (String.ofList digits) : Int) else decimal (String.ofList digits))

/-- What a column of 32 bits takes; the client throws on other numbers. -/
def intColumn (n : Option Int) : Except Text Int :=
  match n with
  | some n => if -2 ^ 31 ≤ n ∧ n < 2 ^ 31 then .ok n else .error (lit "Unable to fit integer value into an INT4")
  | none => .error (lit "Argument keyVersion is missing")

section Service
variable (s : Service)

/-- The columns for `cryptoVault.encrypt(secret)`. -/
def secretColumns (draw : Draw) : Except Text EncryptedSecretRow :=
  let parts := (encrypt s.platform s.config.vault draw.iv (lit draw.secret)).splitOn SEPARATOR
  (intColumn (parseInt10 (parts.getD 0 []))).map fun keyVersion =>
    ⟨keyVersion,parts.getD 1 [],parts.getD 2 [],parts.getD 3 []⟩

/-- `String(n)` of an integer. -/
def integerText (n : Int) : Text := lit (toString n)

def decryptStoredSecret (row : EncryptedSecretRow) : Except Text Text :=
  decrypt s.platform s.config.vault
    ([SEPARATOR].intercalate [integerText row.keyVersion,row.secretIv,row.secretAuthTag,row.secretCiphertext])

abbrev Webhooks := OrderedMap String WebhookRow

/-- What is handed out: the encrypted form of the secret. The id is the one that the database gives. -/
def addWebhook (id userId url : String) (payloadTemplate : Option String) (draw : Draw) (webhooks : Webhooks) :
    Except Text Text × Webhooks :=
  match s.validateUrlForSsrf url, secretColumns s draw with
  | .error error, _ => (.error error,webhooks)
  | _, .error error => (.error error,webhooks)
  | .ok _, .ok secret =>
    if (webhooks.get id).isSome then (.error (lit "Unique constraint failed on the fields: (id)"),webhooks)
    else
      (.ok (encrypt s.platform s.config.vault draw.iv (lit draw.secret)),
        webhooks.set id ⟨userId,url,payloadTemplate,secret,none,none,none,none,none⟩)

/-- What is handed out: the secret itself. -/
def rotateSecret (id userId : String) (draw : Draw) (now : Nat) (webhooks : Webhooks) : Except Text Text × Webhooks :=
  match webhooks.get id with
  | none => (.error (lit "Webhook not found"),webhooks)
  | some webhook =>
    if webhook.userId ≠ userId then (.error (lit "Webhook not found"),webhooks)
    else
      match secretColumns s draw with
      | .error error => (.error error,webhooks)
      | .ok secret =>
        (.ok (lit draw.secret),
          webhooks.set id
            { webhook with
              secret := secret
              previousSecretCiphertext := some webhook.secret.secretCiphertext
              previousSecretIv := some webhook.secret.secretIv
              previousSecretAuthTag := some webhook.secret.secretAuthTag
              previousKeyVersion := some webhook.secret.keyVersion
              previousSecretExpiresAt := some (now + SECRET_ROTATION_GRACE_PERIOD_MS) })

inductive Call where
  | addWebhook (id userId url : String) (payloadTemplate : Option String) (draw : Draw)
  | rotateSecret (id userId : String) (draw : Draw) (now : Nat)

/-- The webhook that a call is about. -/
def Call.id : Call → String
  | .addWebhook id _ _ _ _ => id
  | .rotateSecret id _ _ _ => id

def step (webhooks : Webhooks) : Call → Except Text Text × Webhooks
  | .addWebhook id userId url payloadTemplate draw => addWebhook s id userId url payloadTemplate draw webhooks
  | .rotateSecret id userId draw now => rotateSecret s id userId draw now webhooks

/-- A delivery: its payload, random bytes for the nonce, and the clock read for the timestamp and for the
grace period. -/
structure Attempt where
  payload : String
  nonceBytes : List UInt8
  nonce_length : nonceBytes.length = 16
  now : Nat
  checked : Nat
  running : 0 < now ∧ now ≤ MAX_SAFE_INTEGER

def Attempt.nonce (a : Attempt) : String := toHex a.nonceBytes

structure SignatureHeaders where
  signature : String
  nonce : String
  ed25519 : String
  secondary : Option String

/-- A text column that is neither null nor empty. -/
def filled (column : Option Text) : Option Text := column.filter (· ≠ [])

/-- The previous secret, while its grace period lasts. -/
def graceColumns (webhook : WebhookRow) (checked : Nat) : Option EncryptedSecretRow :=
  match filled webhook.previousSecretCiphertext, filled webhook.previousSecretIv, filled webhook.previousSecretAuthTag,
    webhook.previousKeyVersion, webhook.previousSecretExpiresAt with
  | some ciphertext, some iv, some authTag, some keyVersion, some expiresAt =>
    if checked < expiresAt then some ⟨keyVersion,iv,authTag,ciphertext⟩ else none
  | _, _, _, _, _ => none

def buildDualSignatureHeaders (webhook : WebhookRow) (a : Attempt) : Except Text SignatureHeaders :=
  match decryptStoredSecret s webhook.secret with
  | .error error => .error error
  | .ok activeSecret =>
    let primary := generateWebhookSignature a.payload (toText activeSecret) a.now a.nonce
    match s.signWebhookEd25519 a.payload a.now with
    | .error error => .error error
    | .ok ed25519 =>
      match graceColumns webhook a.checked with
      | none => .ok ⟨primary.headerValue,a.nonce,ed25519,none⟩
      | some previous =>
        match decryptStoredSecret s previous with
        | .error error => .error error
        | .ok previousSecret =>
          let secondary := generateWebhookSignature a.payload (toText previousSecret) a.now a.nonce
          .ok ⟨primary.headerValue,a.nonce,ed25519,some secondary.headerValue⟩

def headerVerifies (seen : Nat) (payload header secret : String) : Bool :=
  match parseWebhookSignatureHeader (.string header) with
  | .ok parsed => verifyParsedSignature seen payload parsed secret DEFAULT_DRIFT_TOLERANCE_MS none
  | .error _ => false

end Service

def Call.draw : Call → Draw
  | .addWebhook _ _ _ _ draw => draw
  | .rotateSecret _ _ draw _ => draw

def handed (id : String) (past : List (Transition Webhooks Call (Except Text Text))) : List Text :=
  ((past.filter fun t => t.input.id = id).filterMap fun t => t.answer.toOption).reverse

theorem secret_char {d : Draw} {c : Char} (written : c ∈ d.secret.toList) :
    (48 ≤ c.toNat ∧ c.toNat ≤ 57) ∨ (97 ≤ c.toNat ∧ c.toNat ≤ 102) ∨ (65 ≤ c.toNat ∧ c.toNat ≤ 70) := by
  obtain ⟨n,small,rfl⟩ := toHex_digit written
  exact hexChar_range (by simp [hexDigit_value n small])

theorem utf8_secret (d : Draw) : utf8 d.secret = d.secret.toList.map fun c => UInt8.ofNat c.toNat := by
  refine AsciiBytes.encode_ascii fun c written => ?_
  have range := secret_char written
  omega

theorem secret_length (d : Draw) : (utf8 d.secret).length = 64 := by
  rw [utf8_secret,List.length_map,Draw.secret,toHex_length,d.bytes_length]

theorem secret_filled (d : Draw) : 0 ∉ utf8 d.secret := by
  rw [utf8_secret]
  intro zero
  obtain ⟨c,written,byte⟩ := List.mem_map.mp zero
  have range := secret_char written
  have code := congrArg UInt8.toNat byte
  rw [UInt8.toNat_ofNat',Nat.mod_eq_of_lt (by omega)] at code
  have none_ : c.toNat = 0 := code
  omega

theorem toText_ne_secret {text : Text} (colon : SEPARATOR ∈ text) (d : Draw) : toText text ≠ d.secret := by
  intro same
  have written := mem_toText (show SEPARATOR < 0xD800 by decide) colon
  rw [same] at written
  have range := secret_char written
  simp only [show (Char.ofNat SEPARATOR).toNat = 58 by decide] at range
  omega

theorem attempt_plain (a : Attempt) : PlainNonce a.nonce := by
  have plain : ∀ c ∈ a.nonce.toList, c ≠ ',' ∧ isControl c = false ∧ isStrWhiteSpace c = false ∧ c.toNat < 0x10000 := by
    intro c written
    obtain ⟨n,small,rfl⟩ := toHex_digit written
    exact hexChar_plain (by simp [hexDigit_value n small])
  refine ⟨?_,?_,?_,?_⟩
  · intro comma
    exact (plain _ comma).1 rfl
  · exact List.any_eq_false.mpr fun c listed => by simp [(plain c listed).2.1]
  · exact IntegerText.trim_kept (fun c first => (plain c (List.mem_of_mem_head? first)).2.2.1)
      (fun c last => (plain c (List.mem_of_mem_getLast? last)).2.2.1)
  · rw [Utf16Text.utf16Length_basic fun c listed => (plain c listed).2.2.2,Attempt.nonce,toHex_length,a.nonce_length]
    decide

def Attempt.dataToSign (a : Attempt) : List UInt8 := utf8 (buildWebhookDataToSign a.payload a.now a.nonce)

theorem headerVerifies_generated (a : Attempt) (seen : Nat) (secret other : String) :
    headerVerifies seen a.payload (generateWebhookSignature a.payload secret a.now a.nonce).headerValue other = true ↔
      withinTolerance seen a.now DEFAULT_DRIFT_TOLERANCE_MS = true ∧
        hmac (utf8 secret) a.dataToSign = hmac (utf8 other) a.dataToSign := by
  have codes : safeTimingSafeEqual (generateWebhookSignature a.payload secret a.now a.nonce).signature
      (generateWebhookSignature a.payload other a.now a.nonce).signature = true ↔
        hmac (utf8 secret) a.dataToSign = hmac (utf8 other) a.dataToSign := by
    rw [safeTimingSafeEqual,beq_iff_eq]
    constructor
    · intro same
      exact toHex_injective (utf8_injective same)
    · intro same
      rw [generateWebhookSignature,generateWebhookSignature,computeLocalHmacSignature,computeLocalHmacSignature]
      exact congrArg (fun code => utf8 (toHex code)) same
  rw [headerVerifies,parse_generated a.running (attempt_plain a)]
  simp only [verifyParsedSignature,effectiveNonce_none]
  by_cases within : withinTolerance seen a.now DEFAULT_DRIFT_TOLERANCE_MS = true
  · by_cases same : hmac (utf8 secret) a.dataToSign = hmac (utf8 other) a.dataToSign
    · simp [within,same,codes.mpr same]
    · have differs := Bool.eq_false_iff.mpr (codes.not.mpr same)
      by_cases empty : a.nonce = ""
      · rw [empty] at differs
        simp [within,same,empty,differs]
      · simp [within,same,empty,differs]
  · simp [within]

/-- Neither part of what is sealed is empty. -/
def Filled (p : Platform) : Prop :=
  ∀ key iv plaintext, plaintext ≠ [] → (p.cipher key iv plaintext).1 ≠ [] ∧ (p.cipher key iv plaintext).2 ≠ []

/-- A version without separator whose number has a column and stands for the current key. -/
structure Readable (c : Config) (keyVersion : Int) : Prop where
  plain : SEPARATOR ∉ c.currentVersion
  column : intColumn (parseInt10 c.currentVersion) = .ok keyVersion
  found : Finds c (integerText keyVersion)

theorem integerText_plain (n : Int) : SEPARATOR ∉ integerText n := by
  intro colon
  have written : ':' ∈ (toString n).toList := (mem_lit (by decide)).mp colon
  have digits : ∀ m : Nat, ':' ∉ (toString m).toList := by
    intro m digit
    exact absurd ((isDigits_iff.mp (decimal_toString m).1).2 _ digit) (by decide)
  cases n with
  | ofNat m => exact digits m written
  | negSucc m =>
    have parts : (toString (Int.negSucc m)).toList = '-' :: (toString (m + 1)).toList := by
      have joined : toString (Int.negSucc m) = "-" ++ toString (m + 1) := rfl
      rw [joined,String.toList_append]
      rfl
    rw [parts,List.mem_cons] at written
    rcases written with sign | digit
    · exact absurd sign (by decide)
    · exact digits _ digit

section Rows
variable (s : Service) (keyVersion : Int)

def sealedColumns (draw : Draw) : EncryptedSecretRow :=
  let sealed := sealText s.platform s.config.vault.currentKey draw.iv (lit draw.secret)
  ⟨keyVersion,base64 draw.iv,base64 sealed.2,base64 sealed.1⟩

/-- What `addWebhook` hands out. -/
def encryptedSecret (draw : Draw) : Text := encrypt s.platform s.config.vault draw.iv (lit draw.secret)

/-- What was handed out for the secrets that were drawn, the latest first. -/
def handedFor : List Draw → List Text
  | [] => []
  | [first] => [encryptedSecret s first]
  | draw :: older => lit draw.secret :: handedFor older

structure Demoted (row : WebhookRow) (previous : EncryptedSecretRow) : Prop where
  ciphertext : row.previousSecretCiphertext = some previous.secretCiphertext
  iv : row.previousSecretIv = some previous.secretIv
  authTag : row.previousSecretAuthTag = some previous.secretAuthTag
  keyVersion : row.previousKeyVersion = some previous.keyVersion
  expiresAt : ∃ expiresAt, row.previousSecretExpiresAt = some expiresAt

/-- A row holds the last secret that was drawn and the one before it. -/
def RowHolds (row : WebhookRow) : List Draw → Prop
  | [] => False
  | [draw] => row.secret = sealedColumns s keyVersion draw ∧ row.previousSecretExpiresAt = none
  | draw :: previous :: _ =>
    row.secret = sealedColumns s keyVersion draw ∧ Demoted row (sealedColumns s keyVersion previous)

def HoldsFor (past : List (Transition Webhooks Call (Except Text Text))) (id : String) : Option WebhookRow → Prop
  | none => handed id past = []
  | some row => ∃ draws, handed id past = handedFor s draws ∧ RowHolds s keyVersion row draws ∧
      ∀ draw ∈ draws, ∃ t ∈ past, t.input.draw = draw

def Consistent (past : List (Transition Webhooks Call (Except Text Text))) (webhooks : Webhooks) : Prop :=
  ∀ id, HoldsFor s keyVersion past id (webhooks.get id)

variable {s} {keyVersion}

theorem secretColumns_eq (readable : Readable s.config keyVersion) (draw : Draw) :
    secretColumns s draw = .ok (sealedColumns s keyVersion draw) := by
  have parts : (encrypt s.platform s.config.vault draw.iv (lit draw.secret)).splitOn SEPARATOR = _ :=
    splitOn_form readable.plain ..
  simp only [secretColumns,parts,sealedColumns]
  have column := readable.column
  simp only [List.getD_cons_zero,Config.vault] at column ⊢
  rw [column]
  rfl

theorem decrypt_sealedColumns (inverts : Inverts s.platform) (readable : Readable s.config keyVersion) (draw : Draw) :
    decryptStoredSecret s (sealedColumns s keyVersion draw) = .ok (lit draw.secret) := by
  have found := (finds_iff s.config _).mpr readable.found
  have back := decrypt_sealed inverts (integerText_plain keyVersion) found draw.iv (lit draw.secret)
  rw [toText_lit] at back
  exact back

/-- A call is refused, or it adds a webhook, or it demotes the secret of one. -/
theorem step_cases (readable : Readable s.config keyVersion) (webhooks : Webhooks) (call : Call) :
    (∃ error, step s webhooks call = (.error error,webhooks)) ∨
      (webhooks.get call.id = none ∧ ∃ row, RowHolds s keyVersion row [call.draw] ∧
        step s webhooks call = (.ok (encryptedSecret s call.draw),webhooks.set call.id row)) ∨
      ∃ row row', webhooks.get call.id = some row ∧ row'.secret = sealedColumns s keyVersion call.draw ∧
        Demoted row' row.secret ∧ step s webhooks call = (.ok (lit call.draw.secret),webhooks.set call.id row') := by
  cases call with
  | addWebhook id userId url payloadTemplate draw =>
    simp only [step,addWebhook,secretColumns_eq readable,Call.id,Call.draw]
    cases s.validateUrlForSsrf url with
    | error error => exact .inl ⟨error,rfl⟩
    | ok _ =>
      cases found : webhooks.get id with
      | some row => exact .inl ⟨_,rfl⟩
      | none => exact .inr (.inl ⟨rfl,_,⟨rfl,rfl⟩,rfl⟩)
  | rotateSecret id userId draw now =>
    simp only [step,rotateSecret,secretColumns_eq readable,Call.id,Call.draw]
    cases found : webhooks.get id with
    | none => exact .inl ⟨_,rfl⟩
    | some row =>
      by_cases owner : row.userId = userId
      · simp only [owner,ne_eq,not_true_eq_false,if_false]
        exact .inr (.inr ⟨row,_,rfl,rfl,⟨rfl,rfl,rfl,rfl,_,rfl⟩,rfl⟩)
      · simp only [owner,ne_eq,not_false_eq_true,if_true]
        exact .inl ⟨_,rfl⟩

theorem handed_concat (id : String) (past : List (Transition Webhooks Call (Except Text Text)))
    (t : Transition Webhooks Call (Except Text Text)) :
    handed id (past ++ [t]) = (if t.input.id = id then t.answer.toOption.toList else []) ++ handed id past := by
  by_cases own : t.input.id = id
  · cases answer : t.answer <;> simp [handed,own,answer,Except.toOption]
  · simp [handed,own]

variable {past : List (Transition Webhooks Call (Except Text Text))}

theorem holdsFor_more {id : String} {row : Option WebhookRow} (holds : HoldsFor s keyVersion past id row)
    {t : Transition Webhooks Call (Except Text Text)} (silent : t.input.id = id → t.answer.toOption = none) :
    HoldsFor s keyVersion (past ++ [t]) id row := by
  have same : handed id (past ++ [t]) = handed id past := by
    rw [handed_concat]
    by_cases own : t.input.id = id
    · simp [own,silent own]
    · simp [own]
  cases row with
  | none => exact same.trans holds
  | some row =>
    obtain ⟨draws,texts,inRow,drawn⟩ := holds
    refine ⟨draws,same.trans texts,inRow,fun draw listed => ?_⟩
    obtain ⟨u,earlier,own⟩ := drawn draw listed
    exact ⟨u,List.mem_append_left _ earlier,own⟩

theorem consistent_step (readable : Readable s.config keyVersion) {webhooks : Webhooks} (call : Call)
    (holds : Consistent s keyVersion past webhooks) :
    Consistent s keyVersion (past ++ [transition (step s) webhooks call]) (step s webhooks call).2 := by
  intro id
  have last : transition (step s) webhooks call ∈ past ++ [transition (step s) webhooks call] := by simp
  have before := holds id
  rcases step_cases readable webhooks call with ⟨error,stepped⟩ | ⟨free,row,fresh,stepped⟩ |
      ⟨row,row',found,secret,demoted,stepped⟩
  · rw [stepped]
    exact holdsFor_more before fun _ => by simp [transition,stepped,Except.toOption]
  · rw [stepped,get_set]
    by_cases own : id = call.id
    · rw [if_pos own]
      rw [own,free] at before
      refine ⟨[call.draw],?_,fresh,fun draw listed => ⟨_,last,?_⟩⟩
      · have none_ : handed call.id past = [] := before
        rw [handed_concat,own,none_]
        simp [transition,stepped,Except.toOption,handedFor]
      · exact (List.mem_singleton.mp listed).symm
    · rw [if_neg own]
      exact holdsFor_more before fun same => absurd same (Ne.symm own)
  · rw [stepped,get_set]
    by_cases own : id = call.id
    · rw [if_pos own]
      rw [own,found] at before
      obtain ⟨draws,texts,inRow,drawn⟩ := before
      cases draws with
      | nil => exact inRow.elim
      | cons draw older =>
        have active : row.secret = sealedColumns s keyVersion draw := by
          cases older with
          | nil => exact inRow.1
          | cons previous older => exact inRow.1
        refine ⟨call.draw :: draw :: older,?_,⟨secret,active ▸ demoted⟩,?_⟩
        · rw [handed_concat,own,texts]
          simp [transition,stepped,Except.toOption,handedFor]
        · intro drawn' listed
          rcases List.mem_cons.mp listed with rfl | earlier
          · exact ⟨_,last,rfl⟩
          · obtain ⟨t,inPast,is⟩ := drawn drawn' earlier
            exact ⟨t,List.mem_append_left _ inPast,is⟩
    · rw [if_neg own]
      exact holdsFor_more before fun same => absurd same (Ne.symm own)

theorem consistent_run (readable : Readable s.config keyVersion) (calls : List Call) :
    Consistent s keyVersion (history (step s) .empty calls) (run (step s) .empty calls) :=
  history_rec (fun _ => rfl) (fun _ _ call => consistent_step readable call) calls

end Rows

/-- The grace period of the last rotation lasts when it is checked. -/
def GraceRunning (webhook : WebhookRow) (a : Attempt) : Prop :=
  ∃ expiresAt, webhook.previousSecretExpiresAt = some expiresAt ∧ a.checked < expiresAt

/-- The time of a receiver that takes the timestamp. -/
def Received (a : Attempt) (seen : Nat) : Prop := withinTolerance seen a.now DEFAULT_DRIFT_TOLERANCE_MS = true

/-- The headers verify with the secrets that were handed out, the latest first. -/
structure Verifiable (secrets : List Text) (webhook : WebhookRow) (a : Attempt) (headers : SignatureHeaders) : Prop where
  primary : ∀ latest, secrets[0]? = some latest → ∀ seen, Received a seen →
    headerVerifies seen a.payload headers.signature (toText latest) = true
  secondary : GraceRunning webhook a → ∀ before, secrets[1]? = some before → ∃ header, headers.secondary = some header ∧
    ∀ seen, Received a seen → headerVerifies seen a.payload header (toText before) = true
  afterwards : ¬ GraceRunning webhook a → ∀ older ∈ secrets, secrets[0]? ≠ some older → ∀ header,
    header = headers.signature ∨ headers.secondary = some header → ∀ seen,
      headerVerifies seen a.payload header (toText older) = false

def hashed (calls : List Call) (secrets : List Text) (a : Attempt) : List (List UInt8) :=
  (calls.map (·.draw.secret) ++ secrets.map toText).flatMap fun secret => hmacMessages (utf8 secret) a.dataToSign

section Headers
variable {s : Service} {keyVersion : Int}

theorem base64_filled {bytes : List UInt8} (some_ : bytes ≠ []) : base64 bytes ≠ [] := by
  intro empty
  have same : base64 bytes = base64 [] := empty.trans rfl
  exact some_ (by rw [← ofBase64_base64 tagged bytes,same,ofBase64_base64])

theorem colon_encryptedSecret (draw : Draw) : SEPARATOR ∈ encryptedSecret s draw := by
  simp [encryptedSecret,encrypt,form]

theorem handedFor_text {draws : List Draw} {text : Text} (listed : text ∈ handedFor s draws) :
    (∃ draw : Draw, text = lit draw.secret) ∨ SEPARATOR ∈ text := by
  induction draws with
  | nil => cases listed
  | cons draw older ih =>
    cases older with
    | nil =>
      obtain rfl := List.mem_singleton.mp listed
      exact .inr (colon_encryptedSecret draw)
    | cons previous older =>
      rcases List.mem_cons.mp listed with rfl | earlier
      · exact .inl ⟨draw,rfl⟩
      · exact ih earlier

theorem length_handedFor (draws : List Draw) : (handedFor s draws).length = draws.length := by
  induction draws with
  | nil => rfl
  | cons draw older ih =>
    cases older with
    | nil => rfl
    | cons previous older => simp [handedFor,ih]

variable {a : Attempt}

theorem verifies_iff {calls : List Call} {secrets : List Text} (free : CollisionFree (hashed calls secrets a)) {draw : Draw}
    (drawn : draw.secret ∈ calls.map (·.draw.secret)) {text : Text} (listed : text ∈ secrets) (seen : Nat) :
    headerVerifies seen a.payload (generateWebhookSignature a.payload draw.secret a.now a.nonce).headerValue (toText text) =
      true ↔ Received a seen ∧ toText text = draw.secret := by
  rw [headerVerifies_generated,Received]
  refine and_congr_right fun _ => ?_
  constructor
  · intro same
    have both : CollisionFree (hmacMessages (utf8 draw.secret) a.dataToSign ++ hmacMessages (utf8 (toText text)) a.dataToSign) := by
      refine collisionFree_mono (List.append_subset.mpr ⟨?_,?_⟩) free
      · exact fun message among => List.mem_flatMap.mpr ⟨_,List.mem_append_left _ drawn,among⟩
      · exact fun message among => List.mem_flatMap.mpr ⟨_,List.mem_append_right _ (List.mem_map_of_mem listed),among⟩
    exact utf8_injective (hmac_key_inj (secret_length draw) (secret_filled draw) both same)
  · intro same
    rw [same]

variable {webhook : WebhookRow}

theorem graceColumns_demoted (filledUp : Filled s.platform) {draw : Draw}
    (demoted : Demoted webhook (sealedColumns s keyVersion draw)) (a : Attempt) :
    (GraceRunning webhook a ∧ graceColumns webhook a.checked = some (sealedColumns s keyVersion draw)) ∨
      (¬ GraceRunning webhook a ∧ graceColumns webhook a.checked = none) := by
  obtain ⟨ciphertext,iv,authTag,version,expiresAt,expires⟩ := demoted
  have plaintext : utf8 (toText (lit draw.secret)) ≠ [] := by
    rw [toText_lit]
    exact List.ne_nil_of_length_pos (by rw [secret_length]; decide)
  have ivFilled : draw.iv ≠ [] := List.ne_nil_of_length_pos (by rw [draw.iv_length]; decide)
  obtain ⟨first,second⟩ := filledUp s.config.vault.currentKey draw.iv _ plaintext
  have columns : graceColumns webhook a.checked =
      if a.checked < expiresAt then some (sealedColumns s keyVersion draw) else none := by
    simp only [graceColumns,ciphertext,iv,authTag,version,expires,sealedColumns,filled,Option.filter_some]
    have textFilled : base64 (sealText s.platform s.config.vault.currentKey draw.iv (lit draw.secret)).1 ≠ [] :=
      base64_filled first
    have tagFilled : base64 (sealText s.platform s.config.vault.currentKey draw.iv (lit draw.secret)).2 ≠ [] :=
      base64_filled second
    simp [base64_filled ivFilled,textFilled,tagFilled]
  by_cases running : a.checked < expiresAt
  · exact .inl ⟨⟨expiresAt,expires,running⟩,by rw [columns,if_pos running]⟩
  · refine .inr ⟨?_,by rw [columns,if_neg running]⟩
    rintro ⟨other,same,lasts⟩
    rw [expires] at same
    obtain rfl := Option.some.inj same
    exact running lasts

theorem graceColumns_fresh (fresh : webhook.previousSecretExpiresAt = none) (a : Attempt) :
    graceColumns webhook a.checked = none := by
  unfold graceColumns
  split
  next expires => simp [fresh] at expires
  next => rfl

theorem received_now (a : Attempt) : Received a a.now := by simp [Received,withinTolerance]

theorem build_eq (inverts : Inverts s.platform) (readable : Readable s.config keyVersion) {draw : Draw}
    (active : webhook.secret = sealedColumns s keyVersion draw) {header : String}
    (signed : s.signWebhookEd25519 a.payload a.now = .ok header) (previous : Option Draw)
    (grace : graceColumns webhook a.checked = previous.map (sealedColumns s keyVersion)) :
    buildDualSignatureHeaders s webhook a =
      .ok ⟨(generateWebhookSignature a.payload draw.secret a.now a.nonce).headerValue,a.nonce,header,
        previous.map fun older => (generateWebhookSignature a.payload older.secret a.now a.nonce).headerValue⟩ := by
  rw [buildDualSignatureHeaders,active,decrypt_sealedColumns inverts readable]
  simp only [signed,grace]
  cases previous with
  | none => simp
  | some older => simp [decrypt_sealedColumns inverts readable]

theorem other_text {draws : List Draw} {draw : Draw} {text : Text} (listed : text ∈ handedFor s draws)
    (older : text ≠ lit draw.secret) : toText text ≠ draw.secret := by
  rcases handedFor_text listed with ⟨other,rfl⟩ | colon
  · rw [toText_lit]
    intro same
    exact older (by rw [same])
  · exact toText_ne_secret colon draw

variable {secondary : Option String}

theorem added_not_verifiable {calls : List Call} {draw : Draw} {ed25519 : String}
    (free : CollisionFree (hashed calls (handedFor s [draw]) a)) (drawn : draw.secret ∈ calls.map (·.draw.secret)) :
    ¬ Verifiable (handedFor s [draw]) webhook a
      ⟨(generateWebhookSignature a.payload draw.secret a.now a.nonce).headerValue,a.nonce,ed25519,secondary⟩ := by
  intro verifiable
  have verified := verifiable.primary (encryptedSecret s draw) rfl a.now (received_now a)
  have same := ((verifies_iff free drawn (List.mem_singleton_self _) a.now).mp verified).2
  exact toText_ne_secret (colon_encryptedSecret draw) draw same

theorem rotated_verifiable_iff {calls : List Call} {draw previous : Draw} {older : List Draw} {ed25519 : String}
    (free : CollisionFree (hashed calls (handedFor s (draw :: previous :: older)) a))
    (drawn : draw.secret ∈ calls.map (·.draw.secret)) (drawn' : previous.secret ∈ calls.map (·.draw.secret))
    (sent : (GraceRunning webhook a ∧ secondary =
      some (generateWebhookSignature a.payload previous.secret a.now a.nonce).headerValue) ∨
      (¬ GraceRunning webhook a ∧ secondary = none)) :
    Verifiable (handedFor s (draw :: previous :: older)) webhook a
        ⟨(generateWebhookSignature a.payload draw.secret a.now a.nonce).headerValue,a.nonce,ed25519,secondary⟩ ↔
      (GraceRunning webhook a → older ≠ []) := by
  have before : (handedFor s (draw :: previous :: older))[1]? = (handedFor s (previous :: older))[0]? := rfl
  constructor
  · intro verifiable running onlyTwo
    subst onlyTwo
    obtain ⟨header,is,verifies⟩ := verifiable.secondary running (encryptedSecret s previous) rfl
    rcases sent with ⟨_,sent⟩ | ⟨stopped,_⟩
    · obtain rfl := Option.some.inj (sent.symm.trans is)
      have listed : encryptedSecret s previous ∈ handedFor s [draw,previous] := by simp [handedFor]
      have same := ((verifies_iff free drawn' listed a.now).mp (verifies a.now (received_now a))).2
      exact toText_ne_secret (colon_encryptedSecret previous) previous same
    · exact stopped running
  · intro enough
    refine ⟨?_,?_,?_⟩
    · intro latest first seen received
      obtain rfl : lit draw.secret = latest := Option.some.inj first
      rw [headerVerifies_generated,toText_lit]
      exact ⟨received,rfl⟩
    · intro running text second
      rcases sent with ⟨_,sent⟩ | ⟨stopped,_⟩
      · refine ⟨_,sent,fun seen received => ?_⟩
        cases older with
        | nil => exact absurd rfl (enough running)
        | cons third older =>
          obtain rfl : lit previous.secret = text := Option.some.inj second
          rw [headerVerifies_generated,toText_lit]
          exact ⟨received,rfl⟩
      · exact absurd running stopped
    · intro stopped text listed other header among seen
      rcases sent with ⟨running,_⟩ | ⟨_,none_⟩
      · exact absurd running stopped
      · rcases among with rfl | second
        · have differs : text ≠ lit draw.secret := fun same => other (by rw [same]; rfl)
          have apart := other_text listed differs
          exact Bool.eq_false_iff.mpr fun verified => apart ((verifies_iff free drawn listed seen).mp verified).2
        · rw [none_] at second
          cases second

/-- For every run of calls and every delivery of a stored row: the headers verify with what was handed out
exactly if the secret was rotated, and rotated twice where the grace period lasts. -/
theorem deliveries_verify_iff (s : Service) (inverts : Inverts s.platform) (filledUp : Filled s.platform) (keyVersion : Int)
    (readable : Readable s.config keyVersion) (calls : List Call) (id : String) (webhook : WebhookRow)
    (stored : (run (step s) .empty calls).get id = some webhook) (a : Attempt) (ed25519 : String)
    (signed : s.signWebhookEd25519 a.payload a.now = .ok ed25519)
    (free : CollisionFree (hashed calls (handed id (history (step s) .empty calls)) a)) :
    ∃ headers, buildDualSignatureHeaders s webhook a = .ok headers ∧
      (Verifiable (handed id (history (step s) .empty calls)) webhook a headers ↔
        2 ≤ (handed id (history (step s) .empty calls)).length ∧
          (GraceRunning webhook a → 3 ≤ (handed id (history (step s) .empty calls)).length)) := by
  have consistent := consistent_run readable calls id
  rw [stored] at consistent
  obtain ⟨draws,texts,inRow,fromCalls⟩ := consistent
  rw [texts] at free ⊢
  have drawn : ∀ draw ∈ draws, draw.secret ∈ calls.map (·.draw.secret) := by
    intro draw listed
    obtain ⟨t,inPast,is⟩ := fromCalls draw listed
    exact List.mem_map.mpr ⟨t.input,input_mem_of_history inPast,by rw [is]⟩
  rw [length_handedFor]
  cases draws with
  | nil => exact inRow.elim
  | cons draw older =>
    have first := drawn draw (by simp)
    cases older with
    | nil =>
      obtain ⟨active,fresh⟩ := inRow
      refine ⟨_,build_eq inverts readable active signed none (graceColumns_fresh fresh a),iff_of_false ?_ (by simp)⟩
      exact added_not_verifiable free first
    | cons previous older =>
      obtain ⟨active,demoted⟩ := inRow
      have second := drawn previous (by simp)
      have length : (GraceRunning webhook a → older ≠ []) ↔
          2 ≤ (draw :: previous :: older).length ∧ (GraceRunning webhook a → 3 ≤ (draw :: previous :: older).length) := by
        cases older <;> simp
      rw [← length]
      rcases graceColumns_demoted filledUp demoted a with ⟨running,columns⟩ | ⟨stopped,columns⟩
      · refine ⟨_,build_eq inverts readable active signed (some previous) columns,?_⟩
        exact rotated_verifiable_iff free first second (.inl ⟨running,rfl⟩)
      · refine ⟨_,build_eq inverts readable active signed none columns,?_⟩
        exact rotated_verifiable_iff free first second (.inr ⟨stopped,rfl⟩)

end Headers

/-- A cipher that hides nothing. -/
def openPlatform : Platform :=
  { tagged with
    cipher := fun _ _ plaintext => (plaintext,[1])
    decipher := fun _ _ _ ciphertext => .ok ciphertext }

theorem openPlatform_inverts : Inverts openPlatform := fun _ _ _ => rfl

def firstService : Service where
  platform := openPlatform
  config := firstConfig
  validateUrlForSsrf _ := .ok ()
  signWebhookEd25519 _ _ := .ok "ed25519"

def drawOf (byte : UInt8) : Draw := ⟨List.replicate 32 byte,List.replicate 12 byte,List.length_replicate ..,List.length_replicate ..⟩

/-- A delivery after more than a day. -/
def firstAttempt : Attempt := ⟨"ping",List.replicate 16 7,List.length_replicate ..,86400011,86400011,by decide⟩

def firstCall : Call := .addWebhook "w" "u" "https://example.com" none (drawOf 1)

theorem firstService_filled : Filled firstService.platform := by
  intro key iv plaintext some_
  exact ⟨some_,List.cons_ne_nil 1 []⟩

theorem firstService_readable : Readable firstService.config 1 := ⟨by decide,by decide,rfl⟩
def addedRow : WebhookRow :=
  ⟨"u","https://example.com",none,sealedColumns firstService 1 (drawOf 1),none,none,none,none,none⟩

theorem firstCall_adds : step firstService .empty firstCall =
    (.ok (encryptedSecret firstService (drawOf 1)),OrderedMap.empty.set "w" addedRow) := by
  rw [firstCall,step,addWebhook,secretColumns_eq firstService_readable]
  rfl

/-- A rotation after the webhook was added. -/
def firstRotation : Call := .rotateSecret "w" "u" (drawOf 2) 10

def rotatedRow : WebhookRow :=
  let previous := sealedColumns firstService 1 (drawOf 1)
  ⟨"u","https://example.com",none,sealedColumns firstService 1 (drawOf 2),some previous.secretCiphertext,
    some previous.secretIv,some previous.secretAuthTag,some previous.keyVersion,some (10 + SECRET_ROTATION_GRACE_PERIOD_MS)⟩

theorem firstRotation_rotates : step firstService (OrderedMap.empty.set "w" addedRow) firstRotation =
    (.ok (lit (drawOf 2).secret),(OrderedMap.empty.set "w" addedRow).set "w" rotatedRow) := by
  rw [firstRotation,step,rotateSecret,get_set,if_pos rfl,secretColumns_eq firstService_readable]
  rfl

/-- What is hashed for the first attempt under some secrets. -/
def hashedTexts (secrets : List String) : List (List UInt8) :=
  secrets.flatMap fun secret => hmacMessages (utf8 secret) firstAttempt.dataToSign

/-- What `addWebhook` hands out for the first draw. -/
def firstText : String :=
  "1:AQEBAQEBAQEBAQEB:AQ==:MDEwMTAxMDEwMTAxMDEwMTAxMDEwMTAxMDEwMTAxMDEwMTAxMDEwMTAxMDEwMTAxMDEwMTAxMDEwMTAxMDEwMQ=="

theorem firstText_eq : toText (encryptedSecret firstService (drawOf 1)) = firstText := by
  have secret : utf8 (drawOf 1).secret = _ := utf8_ofList _
  simp only [encryptedSecret,encrypt,sealText,toText_lit,secret,form,base64]
  simp only [lit,ByteTexts.toBase64,String.toList_ofList]
  decide +kernel

theorem firstTexts_apart :
    ((hashedTexts [(drawOf 1).secret,(drawOf 2).secret,firstText]).map Sha256.sha256).Nodup := by
  have one : utf8 (drawOf 1).secret = _ := utf8_ofList _
  have two : utf8 (drawOf 2).secret = _ := utf8_ofList _
  have three : utf8 firstText = _ := utf8_ofList _
  simp only [hashedTexts,List.flatMap_cons,List.flatMap_nil,one,two,three]
  exact nodup_of_heads [132,46,43,166,120,88] (.cons (by decide +kernel) (.cons (by decide +kernel)
    (.cons (by decide +kernel) (.cons (by decide +kernel) (.cons (by decide +kernel) (.cons (by decide +kernel) .nil))))))
    (by decide)

theorem free_of_texts {calls : List Call} {secrets : List Text}
    (among : calls.map (·.draw.secret) ++ secrets.map toText ⊆ [(drawOf 1).secret,(drawOf 2).secret,firstText]) :
    CollisionFree (hashed calls secrets firstAttempt) := by
  refine Sha256.collisionFree_of_nodup (fun message listed => ?_) firstTexts_apart
  obtain ⟨secret,used,hashes⟩ := List.mem_flatMap.mp listed
  exact List.mem_flatMap.mpr ⟨secret,among used,hashes⟩

theorem rotated_verifies : ∃ webhook headers,
    (run (step firstService) .empty [firstCall,firstRotation]).get "w" = some webhook ∧
    buildDualSignatureHeaders firstService webhook firstAttempt = .ok headers ∧
    Verifiable (handed "w" (history (step firstService) .empty [firstCall,firstRotation])) webhook firstAttempt headers := by
  have texts : handed "w" (history (step firstService) .empty [firstCall,firstRotation]) =
      [lit (drawOf 2).secret,encryptedSecret firstService (drawOf 1)] := by
    rw [history_cons,history_cons,transition,transition,firstCall_adds,firstRotation_rotates]
    rfl
  have free : CollisionFree (hashed [firstCall,firstRotation]
      (handed "w" (history (step firstService) .empty [firstCall,firstRotation])) firstAttempt) := by
    rw [texts]
    exact free_of_texts (by simp [firstText_eq,firstCall,firstRotation,Call.draw])
  have stored : (run (step firstService) .empty [firstCall,firstRotation]).get "w" = some rotatedRow := by
    rw [run_cons,run_cons,run_nil,firstCall_adds,firstRotation_rotates,get_set,if_pos rfl]
  have ended : ¬ GraceRunning rotatedRow firstAttempt := by
    rintro ⟨expiresAt,is,lasts⟩
    obtain rfl := Option.some.inj is
    exact absurd lasts (by decide)
  obtain ⟨headers,built,verifiable⟩ := deliveries_verify_iff firstService openPlatform_inverts firstService_filled 1
    firstService_readable [firstCall,firstRotation] "w" rotatedRow stored firstAttempt "ed25519" rfl free
  refine ⟨rotatedRow,headers,stored,built,verifiable.mpr ⟨?_,fun running => absurd running ended⟩⟩
  rw [texts]
  exact Nat.le_refl 2

/-- What `addWebhook` hands out does not verify the deliveries that follow. -/
theorem added_refused : ∃ webhook headers, (run (step firstService) .empty [firstCall]).get "w" = some webhook ∧
    buildDualSignatureHeaders firstService webhook firstAttempt = .ok headers ∧
    ¬ Verifiable (handed "w" (history (step firstService) .empty [firstCall])) webhook firstAttempt headers := by
  have texts : handed "w" (history (step firstService) .empty [firstCall]) = handedFor firstService [drawOf 1] := by
    rw [history_cons,transition,firstCall_adds]
    rfl
  have free : CollisionFree (hashed [firstCall] (handedFor firstService [drawOf 1]) firstAttempt) :=
    free_of_texts (by simp [handedFor,firstText_eq,firstCall,Call.draw])
  rw [texts]
  refine ⟨addedRow,_,by rw [run_cons,run_nil,firstCall_adds,get_set,if_pos rfl],
    build_eq openPlatform_inverts firstService_readable rfl rfl none (graceColumns_fresh rfl _),?_⟩
  exact added_not_verifiable free (List.mem_singleton_self _)

end StellarAlerts.WebhookSecrets
