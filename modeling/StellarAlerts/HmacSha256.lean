import StellarAlerts.HexText
import StellarAlerts.Sha256

/-!
HMAC with SHA-256: the key, hashed if it is longer than a block, is filled up
with zeros to a block and masks an inner and an outer hash. Under one key,
messages are told apart by their codes unless hashed messages collide
(`hmac_inj`).
-/
namespace StellarAlerts.HmacSha256
open HexText (toHex)
open Sha256

def keyBlock (key : List UInt8) : List UInt8 :=
  let short := if 64 < key.length then sha256 key else key
  short ++ List.replicate (64 - short.length) 0

def innerMessage (key message : List UInt8) : List UInt8 := (keyBlock key).map (· ^^^ 0x36) ++ message
def outerMessage (key message : List UInt8) : List UInt8 :=
  (keyBlock key).map (· ^^^ 0x5c) ++ sha256 (innerMessage key message)
def hmac (key message : List UInt8) : List UInt8 := sha256 (outerMessage key message)

example : toHex (hmac (utf8 "key") (utf8 "The quick brown fox jumps over the lazy dog")) =
    "f7bc83f430538424b13298e6aa6fb143ef4d59a14946175997479dbc2d1a3cd8" := by decide +kernel

/-- What is hashed for the code of a message. -/
def hmacMessages (key message : List UInt8) : List (List UInt8) := [outerMessage key message,innerMessage key message]

@[simp] theorem hmac_length (key message : List UInt8) : (hmac key message).length = 32 := sha256_length _

theorem hmac_inj {key a b : List UInt8} (free : CollisionFree (hmacMessages key a ++ hmacMessages key b))
    (same : hmac key a = hmac key b) : a = b := by
  have outer : outerMessage key a = outerMessage key b := free (by simp [hmacMessages]) (by simp [hmacMessages]) same
  have digests : sha256 (innerMessage key a) = sha256 (innerMessage key b) := (List.append_inj outer rfl).2
  have inner : innerMessage key a = innerMessage key b := free (by simp [hmacMessages]) (by simp [hmacMessages]) digests
  exact (List.append_inj inner rfl).2

@[simp] theorem keyBlock_length (key : List UInt8) : (keyBlock key).length = 64 := by
  unfold keyBlock
  by_cases long : 64 < key.length
  · simp [long]
  · simp [long]
    omega

theorem keyBlock_inj {key key' : List UInt8} (block : key.length = 64) (filled : 0 ∉ key)
    (same : keyBlock key' = keyBlock key) : key' = key := by
  have own : keyBlock key = key := by simp [keyBlock,block]
  rw [own] at same
  unfold keyBlock at same
  by_cases long : 64 < key'.length
  · have zero : 0 ∈ key := by
      rw [← same]
      simp [long]
    exact absurd zero filled
  · by_cases whole : key'.length = 64
    · simpa [whole] using same
    · have zero : 0 ∈ key := by
        rw [← same]
        simp [long]
        omega
      exact absurd zero filled

/-- Two keys are told apart by the codes of one message, where one of them is a block without zero bytes. -/
theorem hmac_key_inj {key key' message : List UInt8} (block : key.length = 64) (filled : 0 ∉ key)
    (free : CollisionFree (hmacMessages key message ++ hmacMessages key' message))
    (same : hmac key message = hmac key' message) : key' = key := by
  have outer : outerMessage key message = outerMessage key' message :=
    free (by simp [hmacMessages]) (by simp [hmacMessages]) same
  have masked := (List.append_inj outer (by simp)).1
  have masks : Function.Injective fun b : UInt8 => b ^^^ 0x5c := by
    intro a b equal
    have back : ∀ c : UInt8, c ^^^ 0x5c ^^^ 0x5c = c := fun c => by rw [UInt8.xor_assoc,UInt8.xor_self,UInt8.xor_zero]
    rw [← back a,← back b]
    exact congrArg (· ^^^ 0x5c) equal
  exact keyBlock_inj block filled (List.map_injective_iff.mpr masks masked).symm

end StellarAlerts.HmacSha256
