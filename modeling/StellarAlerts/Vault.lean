import StellarAlerts.ByteTexts
import StellarAlerts.Numbers
import StellarAlerts.OrderedMaps
import StellarAlerts.SeparatedText
import StellarAlerts.UnitTexts

/-!
The vault: secrets in the form `version:iv:authTag:ciphertext`, whole or split over the
columns of a row, and personal fields that are stored in this form unless they look like
it already.
-/
namespace StellarAlerts.Vault
open ByteTexts
open Numbers (Number)
open OrderedMaps
open SeparatedText (length_splitOn)
open Sha256 (sha256 utf8)
open UnitTexts

/-- AES-256-GCM, and the conversions of texts that are left open. -/
structure Platform where
  /-- the ciphertext and the authentication tag for a key, an iv and a plaintext -/
  cipher : List UInt8 → List UInt8 → List UInt8 → List UInt8 × List UInt8
  /-- the plaintext for a key, an iv, a tag and a ciphertext, or the error that is thrown -/
  decipher : List UInt8 → List UInt8 → List UInt8 → List UInt8 → Except Text (List UInt8)
  otherBytes : String → List UInt8
  otherText : List UInt8 → String
  /-- `Number(text)` -/
  toNumber : Text → Number
  /-- `String(n)` -/
  ofNumber : Number → Text

/-- Decryption with the same key, iv and tag inverts encryption. -/
def Inverts (p : Platform) : Prop :=
  ∀ key iv plaintext, p.decipher key iv (p.cipher key iv plaintext).2 (p.cipher key iv plaintext).1 = .ok plaintext

/-- A tag is refused under every other key. -/
def Authentic (p : Platform) : Prop :=
  ∀ key key' iv plaintext, key' ≠ key →
    ∃ error, p.decipher key' iv (p.cipher key iv plaintext).2 (p.cipher key iv plaintext).1 = .error error

def SEPARATOR : Nat := ':'.toNat

/-- The texts of numbers hold no separator. -/
def PlainNumbers (p : Platform) : Prop := ∀ n, SEPARATOR ∉ p.ofNumber n

structure CryptoVault where
  currentKey : List UInt8
  currentVersion : Text
  keys : OrderedMap Text (List UInt8)

/-- `text || other`. -/
def orElse (text other : Text) : Text := if text = [] then other else text

def deriveKey (key : Text) : List UInt8 :=
  let safeKey := orElse key (lit "default_master_encryption_key_32bytes_long!")
  sha256 (utf8 (toText safeKey))

/-- The arguments of the constructor. -/
structure Config where
  currentKey : Text
  currentVersion : Text
  oldKeys : OrderedMap Text Text

def Config.vault (c : Config) : CryptoVault where
  currentKey := deriveKey c.currentKey
  currentVersion := c.currentVersion
  keys := .ofList ((c.currentVersion,deriveKey c.currentKey) :: c.oldKeys.entries.map fun e => (e.1,deriveKey e.2))

/-- What is decrypted comes back as a text. -/
def plainText (p : Platform) (bytes : List UInt8) : Text := lit (utf8Text p.otherText bytes)

def base64 (bytes : List UInt8) : Text := lit (toBase64 bytes)
def ofBase64 (p : Platform) (text : Text) : List UInt8 := fromBase64 p.otherBytes (toText text)

/-- `cipher.update(plaintext,'utf8')`, to the end, and the tag. -/
def sealText (p : Platform) (key iv : List UInt8) (plaintext : Text) : List UInt8 × List UInt8 :=
  p.cipher key iv (utf8 (toText plaintext))

/-- `version:iv:authTag:ciphertext`. -/
def form (version : Text) (iv authTag ciphertext : List UInt8) : Text :=
  [SEPARATOR].intercalate [version,base64 iv,base64 authTag,base64 ciphertext]

section Vault
variable (p : Platform) (vault : CryptoVault)

def encrypt (iv : List UInt8) (plaintext : Text) : Text :=
  let sealed := sealText p vault.currentKey iv plaintext
  form vault.currentVersion iv sealed.2 sealed.1

def decrypt (encrypted : Text) : Except Text Text :=
  match encrypted.splitOn SEPARATOR with
  | [version,iv,authTag,ciphertext] =>
    match vault.keys.get version with
    | none => .error (lit "Unknown encryption key version: " ++ version)
    | some key => (p.decipher key (ofBase64 p iv) (ofBase64 p authTag) (ofBase64 p ciphertext)).map (plainText p)
  | _ => .error (lit "Invalid encrypted secret format")

end Vault

structure WebhookSecretParts where
  secretCiphertext : Text
  secretIv : Text
  secretAuthTag : Text
  keyVersion : Number

section Parts
variable (p : Platform) (vault : CryptoVault)

def joinEncryptedSecretParts (parts : WebhookSecretParts) : Text :=
  [SEPARATOR].intercalate [p.ofNumber parts.keyVersion,parts.secretIv,parts.secretAuthTag,parts.secretCiphertext]

/-- The first four parts; of a text in the vault's form there are as many. -/
def splitEncryptedSecret (encrypted : Text) : WebhookSecretParts :=
  let parts := encrypted.splitOn SEPARATOR
  ⟨parts.getD 3 [],parts.getD 1 [],parts.getD 2 [],p.toNumber (parts.getD 0 [])⟩

def encryptPersonalField (iv : List UInt8) (value : Option Text) : Option Text :=
  let text := value.getD []
  if text = [] then none
  else if (text.splitOn SEPARATOR).length = 4 then some text
  else some (encrypt p vault iv text)

def decryptPersonalField (value : Option Text) : Option Text :=
  let text := value.getD []
  if text = [] then none
  else if (text.splitOn SEPARATOR).length = 4 then
    match decrypt p vault text with
    | .ok plaintext => some plaintext
    | .error _ => some text
  else some text

end Parts

theorem colon_base64 (bytes : List UInt8) : SEPARATOR ∉ base64 bytes :=
  fun colon => colon_toBase64 bytes ((mem_lit (by decide)).mp colon)
@[simp] theorem ofBase64_base64 (p : Platform) (bytes : List UInt8) : ofBase64 p (base64 bytes) = bytes := by
  rw [ofBase64,base64,toText_lit,fromBase64_toBase64]
@[simp] theorem plainText_utf8 (p : Platform) (text : Text) : plainText p (utf8 (toText text)) = lit (toText text) := by
  rw [plainText,utf8Text_utf8]

theorem get_keys (c : Config) (version : Text) :
    c.vault.keys.get version =
      ((c.oldKeys.get version).map deriveKey).or (if version = c.currentVersion then some c.vault.currentKey else none) := by
  rw [← ofList_entries c.oldKeys,get_ofList]
  simp only [Config.vault,get_ofList,List.reverse_cons,List.find?_append,Option.map_or,← List.map_reverse,
    List.find?_map,Option.map_map]
  refine congrArg₂ Option.or rfl ?_
  by_cases own : c.currentVersion = version
  · simp [own]
  · simp [own,Ne.symm own]

section Forms
variable {version : Text}

/-- A version without separator is the first of four parts. -/
theorem splitOn_form (plain : SEPARATOR ∉ version) (iv authTag ciphertext : List UInt8) :
    (form version iv authTag ciphertext).splitOn SEPARATOR =
      [version,base64 iv,base64 authTag,base64 ciphertext] := by
  rw [form]
  refine List.splitOn_intercalate SEPARATOR ?_ (by simp)
  simp [plain,colon_base64]

theorem parts_form (version : Text) (iv authTag ciphertext : List UInt8) :
    ((form version iv authTag ciphertext).splitOn SEPARATOR).length = 4 ↔
      SEPARATOR ∉ version := by
  have none_ : ∀ bytes, (base64 bytes).count SEPARATOR = 0 := fun bytes => List.count_eq_zero.mpr (colon_base64 bytes)
  rw [length_splitOn,← List.count_eq_zero (a := SEPARATOR)]
  simp only [form,List.intercalate_cons_cons,List.intercalate_singleton,List.count_append,none_,List.count_singleton_self]
  omega

end Forms

section RoundTrips
variable {p : Platform} {vault : CryptoVault}

theorem decrypt_format {encrypted : Text} (parts : (encrypted.splitOn SEPARATOR).length ≠ 4) :
    decrypt p vault encrypted = .error (lit "Invalid encrypted secret format") := by
  unfold decrypt
  split
  next version iv authTag ciphertext four => simp [four] at parts
  next => rfl

variable {version : Text}

theorem decrypt_form (plain : SEPARATOR ∉ version) (iv authTag ciphertext : List UInt8) :
    decrypt p vault (form version iv authTag ciphertext) =
      match vault.keys.get version with
      | none => .error (lit "Unknown encryption key version: " ++ version)
      | some key => (p.decipher key iv authTag ciphertext).map (plainText p) := by
  rw [decrypt,splitOn_form plain]
  simp only [ofBase64_base64]

theorem decrypt_sealed (inverts : Inverts p) (plain : SEPARATOR ∉ version) {key : List UInt8}
    (found : vault.keys.get version = some key) (iv : List UInt8) (plaintext : Text) :
    decrypt p vault (form version iv (sealText p key iv plaintext).2 (sealText p key iv plaintext).1) =
      .ok (lit (toText plaintext)) := by
  rw [decrypt_form plain,found]
  simp only [sealText,inverts key iv,Except.map,plainText_utf8]

theorem decipher_iff (inverts : Inverts p) (authentic : Authentic p) (key key' iv : List UInt8) (plaintext : Text) :
    (p.decipher key' iv (sealText p key iv plaintext).2 (sealText p key iv plaintext).1).map (plainText p) = .ok plaintext ↔
      key' = key ∧ IsWellFormed plaintext := by
  rw [sealText]
  by_cases same : key' = key
  · rw [same,inverts,Except.map,plainText_utf8,Except.ok.injEq,lit_toText_iff]
    simp
  · obtain ⟨error,refused⟩ := authentic key key' iv (utf8 (toText plaintext)) same
    simp [refused,Except.map,same]

/-- A text that is sealed with the current key and stored under a version without separator
comes back exactly if the vault finds that key under the version. -/
theorem decrypt_sealed_iff (inverts : Inverts p) (authentic : Authentic p) (plain : SEPARATOR ∉ version) (key iv : List UInt8)
    (plaintext : Text) :
    decrypt p vault (form version iv (sealText p key iv plaintext).2 (sealText p key iv plaintext).1) = .ok plaintext ↔
      vault.keys.get version = some key ∧ IsWellFormed plaintext := by
  rw [decrypt_form plain]
  cases found : vault.keys.get version with
  | none => simp
  | some key' => simpa using decipher_iff inverts authentic key key' iv plaintext

/-- What was encrypted is decrypted to the same text exactly if the version holds no separator,
the current key is found under it, and the text is well-formed. -/
theorem decrypt_encrypt_iff (inverts : Inverts p) (authentic : Authentic p) (iv : List UInt8) (plaintext : Text) :
    decrypt p vault (encrypt p vault iv plaintext) = .ok plaintext ↔
      SEPARATOR ∉ vault.currentVersion ∧ vault.keys.get vault.currentVersion = some vault.currentKey ∧
        IsWellFormed plaintext := by
  by_cases plain : SEPARATOR ∈ vault.currentVersion
  · have parts : ((encrypt p vault iv plaintext).splitOn SEPARATOR).length ≠ 4 :=
      (parts_form vault.currentVersion ..).not.mpr (not_not.mpr plain)
    rw [decrypt_format parts]
    simp [plain]
  · rw [encrypt]
    simpa [plain] using decrypt_sealed_iff inverts authentic plain vault.currentKey iv plaintext

theorem split_encrypt (plain : SEPARATOR ∉ vault.currentVersion) (iv : List UInt8) (plaintext : Text) :
    splitEncryptedSecret p (encrypt p vault iv plaintext) =
      ⟨base64 (sealText p vault.currentKey iv plaintext).1,base64 iv,base64 (sealText p vault.currentKey iv plaintext).2,
        p.toNumber vault.currentVersion⟩ := by
  simp only [splitEncryptedSecret,encrypt,splitOn_form plain]
  rfl

/-- The columns are joined and decrypted to the same text exactly if the current key is found under the
text of the version's number too. -/
theorem decrypt_joined_iff (inverts : Inverts p) (authentic : Authentic p) (numbers : PlainNumbers p)
    (plain : SEPARATOR ∉ vault.currentVersion) (iv : List UInt8) (plaintext : Text) :
    decrypt p vault (joinEncryptedSecretParts p (splitEncryptedSecret p (encrypt p vault iv plaintext))) = .ok plaintext ↔
      vault.keys.get (p.ofNumber (p.toNumber vault.currentVersion)) = some vault.currentKey ∧ IsWellFormed plaintext := by
  rw [split_encrypt plain]
  exact decrypt_sealed_iff inverts authentic (numbers _) vault.currentKey iv plaintext

/-- A field comes back and is not stored as it is exactly if it is well-formed and not in four parts, where
the vault finds its current key. -/
theorem field_iff (inverts : Inverts p) (authentic : Authentic p) (plain : SEPARATOR ∉ vault.currentVersion)
    (own : vault.keys.get vault.currentVersion = some vault.currentKey) (iv : List UInt8) {v : Text} (some_ : v ≠ []) :
    (decryptPersonalField p vault (encryptPersonalField p vault iv (some v)) = some v ∧
        encryptPersonalField p vault iv (some v) ≠ some v) ↔
      IsWellFormed v ∧ (v.splitOn SEPARATOR).length ≠ 4 := by
  have parts : ((encrypt p vault iv v).splitOn SEPARATOR).length = 4 := (parts_form vault.currentVersion ..).mpr plain
  have filled : encrypt p vault iv v ≠ [] := by
    intro empty
    simp [empty] at parts
  by_cases four : (v.splitOn SEPARATOR).length = 4
  · simp [encryptPersonalField,some_,four]
  · have differs : encrypt p vault iv v ≠ v := fun same => four (same ▸ parts)
    have comes : decrypt p vault (encrypt p vault iv v) = .ok v ↔ _ := decrypt_encrypt_iff inverts authentic iv v
    simp only [plain,own,not_false_eq_true,true_and] at comes
    simp only [encryptPersonalField,Option.getD_some,some_,four,decryptPersonalField,filled,parts,if_false,if_true,ne_eq,
      Option.some.injEq,differs,not_false_eq_true,and_true,← comes]
    cases decrypt p vault (encrypt p vault iv v) with
    | ok plaintext => simp
    | error error => simp [differs]

end RoundTrips

/-- The vault's key under a version is its current one. -/
def Finds (c : Config) (version : Text) : Prop :=
  match c.oldKeys.get version with
  | some old => deriveKey old = deriveKey c.currentKey
  | none => version = c.currentVersion

theorem finds_iff (c : Config) (version : Text) : c.vault.keys.get version = some c.vault.currentKey ↔ Finds c version := by
  rw [get_keys,Finds]
  cases c.oldKeys.get version with
  | some old => simp [Config.vault]
  | none => by_cases own : version = c.currentVersion <;> simp [own]

/-- A secret and a field that both come back, and a field that is not stored as it is. -/
structure RoundTrips (p : Platform) (vault : CryptoVault) (iv : List UInt8) (plaintext v : Text) : Prop where
  whole : decrypt p vault (encrypt p vault iv plaintext) = .ok plaintext
  split : decrypt p vault (joinEncryptedSecretParts p (splitEncryptedSecret p (encrypt p vault iv plaintext))) = .ok plaintext
  field : v ≠ [] → decryptPersonalField p vault (encryptPersonalField p vault iv (some v)) = some v ∧
    encryptPersonalField p vault iv (some v) ≠ some v

/-- A configuration whose version holds no separator and stands, as it is and as a number, for the
current key, with a well-formed secret and a well-formed field that is not in four parts. -/
structure Sound (p : Platform) (c : Config) (plaintext v : Text) : Prop where
  plain : SEPARATOR ∉ c.currentVersion
  own : Finds c c.currentVersion
  numbered : Finds c (p.ofNumber (p.toNumber c.currentVersion))
  secret : IsWellFormed plaintext
  field : v ≠ [] → IsWellFormed v ∧ (v.splitOn SEPARATOR).length ≠ 4

/-- For every configuration, secret and field: they come back exactly if all is sound. -/
theorem vault_round_trip_iff (p : Platform) (inverts : Inverts p) (authentic : Authentic p) (numbers : PlainNumbers p)
    (c : Config) (iv : List UInt8) (plaintext v : Text) : RoundTrips p c.vault iv plaintext v ↔ Sound p c plaintext v := by
  constructor
  · intro ⟨whole,split,field⟩
    obtain ⟨plain,own,secret⟩ := (decrypt_encrypt_iff inverts authentic iv plaintext).mp whole
    have numbered := ((decrypt_joined_iff inverts authentic numbers plain iv plaintext).mp split).1
    refine ⟨plain,(finds_iff c _).mp own,(finds_iff c _).mp numbered,secret,?_⟩
    intro some_
    exact (field_iff inverts authentic plain own iv some_).mp (field some_)
  · intro ⟨plain,own,numbered,secret,field⟩
    have found := (finds_iff c _).mpr own
    refine ⟨?_,?_,?_⟩
    · exact (decrypt_encrypt_iff inverts authentic iv plaintext).mpr ⟨plain,found,secret⟩
    · exact (decrypt_joined_iff inverts authentic numbers plain iv plaintext).mpr ⟨(finds_iff c _).mpr numbered,secret⟩
    · intro some_
      exact (field_iff inverts authentic plain found iv some_).mpr (field some_)

/-- A cipher whose tag shows its key. -/
def tagged : Platform where
  cipher key _ plaintext := (plaintext,1 :: key)
  decipher key _ authTag ciphertext :=
    if authTag = 1 :: key then .ok ciphertext else .error (lit "Unsupported state or unable to authenticate data")
  otherBytes _ := []
  otherText _ := "\uFFFD"
  toNumber text := if text = lit "1" then .finite 1 else .nan
  ofNumber n := if n = .finite 1 then lit "1" else lit "NaN"

theorem tagged_inverts : Inverts tagged := by
  intro key iv plaintext
  simp [tagged]

theorem tagged_authentic : Authentic tagged := by
  intro key key' iv plaintext other
  exact ⟨_,if_neg fun same => other (List.cons.inj same).2.symm⟩

theorem tagged_numbers : PlainNumbers tagged := by
  intro n
  simp only [tagged]
  split <;> decide

/-- The version `1` and no old keys. -/
def firstConfig : Config := ⟨lit "master",lit "1",.empty⟩

theorem vault_round_trip_first : RoundTrips tagged firstConfig.vault [] (lit "secret") (lit "+14155551234") :=
  (vault_round_trip_iff tagged tagged_inverts tagged_authentic tagged_numbers firstConfig [] _ _).mpr
    ⟨by decide,rfl,rfl,⟨_,rfl⟩,fun _ => ⟨⟨_,rfl⟩,by decide⟩⟩

/-- A field that has three colons is stored as it is. -/
theorem field_of_colons : ¬ RoundTrips tagged firstConfig.vault [] (lit "secret") (lit "a:b:c:d") := by
  intro comes
  exact (comes.field (by decide)).2 (by decide)

end StellarAlerts.Vault
