import StellarAlerts.SeparatedText
import StellarAlerts.WebhookSigner

/-!
What a webhook signature says. The signed text joins timestamp, nonce and payload with
dots, so it is that of another request where the nonce, or what stands behind a dot of
it, is moved to the front of the payload, and it tells all other requests apart
(`signedData_unambiguous_iff`).
-/
namespace StellarAlerts.WebhookSignedData
open HexText HmacSha256 IntegerText SeparatedText Sha256
open Utf16Text (utf16Length)
open WebhookHeader WebhookSigner

/-- The nonce, or the end of it behind a dot, is moved to the front of the payload: `(nonce',payload')` becomes `(nonce,payload)`. -/
def Moved (nonce payload nonce' payload' : String) : Prop :=
  ∃ moved, payload = moved ++ "." ++ payload' ∧ nonce' ≠ "" ∧
    nonce' = if nonce = "" then moved else nonce ++ "." ++ moved

def joined (nonce payload : String) : List Char :=
  if nonce ≠ "" then nonce.toList ++ '.' :: payload.toList else payload.toList

theorem data_toList (payload : String) (timestamp : Nat) (nonce : String) :
    (buildWebhookDataToSign payload timestamp nonce).toList =
      (toString timestamp).toList ++ '.' :: joined nonce payload := by
  unfold buildWebhookDataToSign joined
  by_cases none_ : nonce = ""
  · simp only [none_,ne_eq,not_true_eq_false,↓reduceIte,String.toList_append,List.append_assoc]
    rfl
  · simp only [none_,ne_eq,not_false_eq_true,↓reduceIte,String.toList_append,List.append_assoc]
    rfl

theorem toString_no_dot (n : Nat) : '.' ∉ (toString n).toList := by
  intro member
  have digit := (isDigits_iff.mp (decimal_toString n).1).2 '.' member
  exact absurd digit (by decide)

variable {p p' n n' : String}

theorem data_eq_iff {t t' : Nat} :
    buildWebhookDataToSign p t n = buildWebhookDataToSign p' t' n' ↔ t = t' ∧ joined n p = joined n' p' := by
  rw [← String.toList_inj,data_toList,data_toList]
  constructor
  · intro same
    obtain ⟨texts,rests⟩ := cut_at (toString_no_dot t) (toString_no_dot t') same
    have numbers := congrArg decimal (String.toList_injective texts)
    rw [(decimal_toString t).2,(decimal_toString t').2] at numbers
    exact ⟨numbers,rests⟩
  · rintro ⟨rfl,rests⟩
    rw [rests]

theorem moved_lists : Moved n p n' p' ↔
    ∃ moved : List Char, p.toList = moved ++ '.' :: p'.toList ∧ n' ≠ "" ∧
      n'.toList = if n = "" then moved else n.toList ++ '.' :: moved := by
  constructor
  · rintro ⟨moved,rfl,some_,nonceIs⟩
    refine ⟨moved.toList,by simp,some_,?_⟩
    rw [nonceIs]
    split <;> simp
  · rintro ⟨moved,payloadIs,some_,nonceIs⟩
    refine ⟨String.ofList moved,String.toList_injective (by simp [payloadIs]),some_,String.toList_injective ?_⟩
    rw [nonceIs]
    split <;> simp

theorem moved_ne (moved : Moved n p n' p') : p ≠ p' := by
  obtain ⟨middle,payloadIs,_,_⟩ := moved_lists.mp moved
  intro same
  have lengths := congrArg List.length payloadIs
  rw [same,List.length_append,List.length_cons] at lengths
  omega

theorem joined_of_moved (moved : Moved n p n' p') : joined n p = joined n' p' := by
  obtain ⟨middle,payloadIs,some_,nonceIs⟩ := moved_lists.mp moved
  by_cases none_ : n = ""
  · rw [if_pos none_] at nonceIs
    simp [joined,none_,some_,payloadIs,nonceIs]
  · rw [if_neg none_] at nonceIs
    simp [joined,none_,some_,payloadIs,nonceIs]

theorem joined_eq_iff : joined n p = joined n' p' ↔ (n = n' ∧ p = p') ∨ Moved n p n' p' ∨ Moved n' p' n p := by
  constructor
  · intro same
    by_cases none_ : n = ""
    · by_cases none' : n' = ""
      · simp only [joined,none_,none',ne_eq,not_true_eq_false,↓reduceIte] at same
        exact .inl ⟨by rw [none_,none'],String.toList_injective same⟩
      · simp only [joined,none_,none',ne_eq,not_true_eq_false,not_false_eq_true,↓reduceIte] at same
        exact .inr (.inl (moved_lists.mpr ⟨n'.toList,same,none',by simp [none_]⟩))
    · by_cases none' : n' = ""
      · simp only [joined,none_,none',ne_eq,not_true_eq_false,not_false_eq_true,↓reduceIte] at same
        exact .inr (.inr (moved_lists.mpr ⟨n.toList,same.symm,none_,by simp [none']⟩))
      · simp only [joined,none_,none',ne_eq,not_false_eq_true,↓reduceIte] at same
        rcases joined_cases same with ⟨nonces,payloads⟩ | ⟨between,nonceIs,payloadIs⟩ | ⟨between,nonceIs,payloadIs⟩
        · exact .inl ⟨String.toList_injective nonces,String.toList_injective payloads⟩
        · exact .inr (.inl (moved_lists.mpr ⟨between,payloadIs,none',by rw [if_neg none_,nonceIs]⟩))
        · exact .inr (.inr (moved_lists.mpr ⟨between,payloadIs,none_,by rw [if_neg none',nonceIs]⟩))
  · rintro (⟨rfl,rfl⟩ | moved | moved)
    · rfl
    · exact joined_of_moved moved
    · exact (joined_of_moved moved).symm

variable {parsed : ParsedWebhookHeader} {nonceOverride : Option String}

theorem verified_signature {now : Nat} {payload : String} {secret : String} {toleranceMs : Nat}
    (verified : verifyParsedSignature now payload parsed secret toleranceMs nonceOverride = true) :
    parsed.signature = computeLocalHmacSignature
      (buildWebhookDataToSign payload parsed.timestamp (effectiveNonce parsed.nonce nonceOverride)) secret := by
  unfold verifyParsedSignature at verified
  by_cases fresh : withinTolerance now parsed.timestamp toleranceMs = true
  · simp only [fresh,Bool.not_true,Bool.false_eq_true,↓reduceIte,generateWebhookSignature,safeTimingSafeEqual,
      beq_iff_eq] at verified
    split at verified
    next same => exact utf8_injective same
    next =>
      split at verified
      next none_ =>
        -- Without any nonce the legacy text is the same text.
        have nothing : effectiveNonce parsed.nonce nonceOverride = "" := by simp [effectiveNonce,none_]
        rw [nothing]
        exact utf8_injective (by simpa using verified)
      next => cases verified
  · simp [fresh] at verified

theorem verifyWebhookSignatureSync_parsed {now : Nat} {payload : String} {headerValue : HeaderValue} {secret : String}
    {toleranceMs : Nat} (parses : parseWebhookSignatureHeader headerValue = .ok parsed)
    (accepted : verifyWebhookSignatureSync now (.string payload) headerValue secret toleranceMs nonceOverride none = true) :
    verifyParsedSignature now payload parsed secret toleranceMs nonceOverride = true := by
  unfold verifyWebhookSignatureSync at accepted
  cases valid : validatePayload (.string payload) with
  | error reason => simp [valid] at accepted
  | ok text =>
    have textIs : text = payload := by
      by_cases long : MAX_WEBHOOK_PAYLOAD_LENGTH < utf16Length payload
      · simp [validatePayload,normalizePayload,long] at valid
      · simpa [validatePayload,normalizePayload,long] using valid.symm
    subst textIs
    simpa [valid,parses,verifyParsedSignatureSet,parseSecondary] using accepted

/-- What is hashed for the signatures of two texts. -/
def signatureMessages (secret data data' : String) : List (List UInt8) :=
  hmacMessages (utf8 secret) (utf8 data) ++ hmacMessages (utf8 secret) (utf8 data')

/-- Two requests are told apart by the texts that are signed, and the signature of the first is accepted for the second in no header,
    exactly unless they are the same but for a part of the nonce that is moved to the front of the payload. -/
theorem signedData_unambiguous_iff (secret : String) (timestamp : Nat) (nonce payload : String) (timestamp' : Nat)
    (headerNonce : String) (nonceOverride : Option String) (payload' : String)
    (free : CollisionFree (signatureMessages secret (buildWebhookDataToSign payload timestamp nonce)
      (buildWebhookDataToSign payload' timestamp' (effectiveNonce headerNonce nonceOverride)))) :
    ((buildWebhookDataToSign payload timestamp nonce =
          buildWebhookDataToSign payload' timestamp' (effectiveNonce headerNonce nonceOverride) →
        (timestamp,nonce,payload) = (timestamp',effectiveNonce headerNonce nonceOverride,payload')) ∧
      ∀ headerValue now toleranceMs,
        parseWebhookSignatureHeader headerValue =
          .ok ⟨timestamp',headerNonce,(generateWebhookSignature payload secret timestamp nonce).signature⟩ →
        verifyWebhookSignatureSync now (.string payload') headerValue secret toleranceMs nonceOverride none = true →
        (timestamp,nonce,payload) = (timestamp',effectiveNonce headerNonce nonceOverride,payload')) ↔
    ¬ (timestamp = timestamp' ∧ (Moved nonce payload (effectiveNonce headerNonce nonceOverride) payload' ∨
        Moved (effectiveNonce headerNonce nonceOverride) payload' nonce payload)) := by
  constructor
  · rintro ⟨apart,_⟩ ⟨times,moved⟩
    have data : buildWebhookDataToSign payload timestamp nonce =
        buildWebhookDataToSign payload' timestamp' (effectiveNonce headerNonce nonceOverride) :=
      data_eq_iff.mpr ⟨times,joined_eq_iff.mpr (.inr moved)⟩
    have payloads : payload = payload' := by simpa using congrArg (fun triple => triple.2.2) (apart data)
    rcases moved with moved | moved
    · exact moved_ne moved payloads
    · exact moved_ne moved payloads.symm
  · intro unmoved
    have apart : buildWebhookDataToSign payload timestamp nonce =
          buildWebhookDataToSign payload' timestamp' (effectiveNonce headerNonce nonceOverride) →
        (timestamp,nonce,payload) = (timestamp',effectiveNonce headerNonce nonceOverride,payload') := by
      intro same
      obtain ⟨times,texts⟩ := data_eq_iff.mp same
      rcases joined_eq_iff.mp texts with ⟨nonces,payloads⟩ | moved
      · rw [times,← nonces,payloads]
      · exact absurd ⟨times,moved⟩ unmoved
    refine ⟨apart,?_⟩
    intro headerValue now toleranceMs parses accepted
    apply apart
    have signed := verified_signature (verifyWebhookSignatureSync_parsed parses accepted)
    have codes : hmac (utf8 secret) (utf8 (buildWebhookDataToSign payload timestamp nonce)) =
        hmac (utf8 secret) (utf8 (buildWebhookDataToSign payload' timestamp' (effectiveNonce headerNonce nonceOverride))) :=
      toHex_injective signed
    exact utf8_injective (hmac_inj free codes)

theorem signedData_unambiguous_pair :
    CollisionFree (signatureMessages "s" (buildWebhookDataToSign "p" 1 "a")
        (buildWebhookDataToSign "p" 1 (effectiveNonce "b" none))) ∧
      verifyWebhookSignatureSync 1 (.string "p")
        (.string (buildWebhookHeaderValue 1 "b" (generateWebhookSignature "p" "s" 1 "a").signature)) "s"
        DEFAULT_DRIFT_TOLERANCE_MS none none ≠ true := by
  have free : CollisionFree (signatureMessages "s" (buildWebhookDataToSign "p" 1 "a")
      (buildWebhookDataToSign "p" 1 (effectiveNonce "b" none))) :=
    collisionFree_of_nodup (List.Subset.refl _) (nodup_of_heads [101,47,223,86] (.cons (by decide +kernel)
      (.cons (by decide +kernel) (.cons (by decide +kernel) (.cons (by decide +kernel) .nil)))) (by decide))
  have unmoved : ¬ ((1 : Nat) = 1 ∧
      (Moved "a" "p" (effectiveNonce "b" none) "p" ∨ Moved (effectiveNonce "b" none) "p" "a" "p")) := by
    rintro ⟨_,moved | moved⟩
    · exact moved_ne moved rfl
    · exact moved_ne moved rfl
  have apart := ((signedData_unambiguous_iff "s" 1 "a" "p" 1 "b" none "p" free).mpr unmoved).2
  refine ⟨free,?_⟩
  intro accepted
  have plain : PlainNonce "b" := ⟨by decide,by decide,by decide,by decide⟩
  have parses := parse_build (by decide : 0 < 1 ∧ 1 ≤ MAX_SAFE_INTEGER) plain (signature_hex "p" "s" 1 "a")
  have same := apart _ 1 DEFAULT_DRIFT_TOLERANCE_MS parses accepted
  exact absurd same (by decide)

/-- The header of a request without its nonce, and the payload behind the nonce. -/
theorem nonce_moves_into_payload :
    buildWebhookDataToSign "p" 1 "a" = buildWebhookDataToSign "a.p" 1 "" ∧
      verifyWebhookSignatureSync 1 (.string "a.p")
        (.string (buildWebhookHeaderValue 1 "" (generateWebhookSignature "p" "s" 1 "a").signature)) "s"
        DEFAULT_DRIFT_TOLERANCE_MS none none = true ∧
      ((1 : Nat),"a","p") ≠ (1,"","a.p") := by
  have data : buildWebhookDataToSign "p" 1 "a" = buildWebhookDataToSign "a.p" 1 "" := by decide
  have signature : (generateWebhookSignature "p" "s" 1 "a").signature = (generateWebhookSignature "a.p" "s" 1 "").signature :=
    congrArg (computeLocalHmacSignature · "s") data
  have plain : PlainNonce "" := ⟨by decide,by decide,by decide,by decide⟩
  have parses := parse_generated (by decide : 0 < 1 ∧ 1 ≤ MAX_SAFE_INTEGER) plain "a.p" "s"
  refine ⟨data,?_,by decide⟩
  rw [signature]
  exact sync_generated (by decide) (by decide) parses

end StellarAlerts.WebhookSignedData
