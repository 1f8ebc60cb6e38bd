import StellarAlerts.Sha256

/-!
Bytes and the texts of a `Buffer`: base64url without padding, base64 with it, and UTF-8.
Bytes are read back from their texts and a text from its bytes
(`fromBase64url_toBase64url`, `fromBase64_toBase64`, `utf8Text_utf8`).
-/
namespace StellarAlerts.ByteTexts
open Sha256 (utf8)

def BASE64URL_ALPHABET : List Char := "ABCDEFGHIJKLMNOPQRSTUVWXYZabcdefghijklmnopqrstuvwxyz0123456789-_".toList

/-- The letter of six bits. -/
def letter (index : Nat) : Char := BASE64URL_ALPHABET.getD index 'A'

def letterIndex (c : Char) : Nat := BASE64URL_ALPHABET.idxOf c

/-- Three bytes in four letters; the last letter of fewer bytes ends in zero bits. -/
def toLetters : List UInt8 → List Char
  | a :: b :: c :: rest =>
    letter (a.toNat / 4) :: letter (a.toNat % 4 * 16 + b.toNat / 16) :: letter (b.toNat % 16 * 4 + c.toNat / 64) ::
      letter (c.toNat % 64) :: toLetters rest
  | [a,b] => [letter (a.toNat / 4),letter (a.toNat % 4 * 16 + b.toNat / 16),letter (b.toNat % 16 * 4)]
  | [a] => [letter (a.toNat / 4),letter (a.toNat % 4 * 16)]
  | [] => []

/-- `buffer.toString('base64url')`. -/
def toBase64url (bytes : List UInt8) : String := String.ofList (toLetters bytes)

/-- A byte of the bits that are left of one letter and the first bits of the next. -/
def byteOf (high low shift : Nat) : UInt8 := UInt8.ofNat (high * shift + low / (64 / shift))

def fromLetters : List Char → List UInt8
  | p :: q :: r :: s :: rest =>
    byteOf (letterIndex p) (letterIndex q) 4 :: byteOf (letterIndex q % 16) (letterIndex r) 16 ::
      byteOf (letterIndex r % 4) (letterIndex s) 64 :: fromLetters rest
  | [p,q,r] => [byteOf (letterIndex p) (letterIndex q) 4,byteOf (letterIndex q % 16) (letterIndex r) 16]
  | [p,q] => [byteOf (letterIndex p) (letterIndex q) 4]
  | _ => []

/-- `Buffer.from(text,'base64url')`. -/
def fromBase64url (further : String → List UInt8) (text : String) : List UInt8 :=
  let bytes := fromLetters text.toList
  if toBase64url bytes = text then bytes else further text

/-- `buffer.toString('utf8')`. -/
def utf8Text (further : List UInt8 → String) (bytes : List UInt8) : String :=
  (String.fromUTF8? bytes.toByteArray).getD (further bytes)

theorem letterIndex_letter : ∀ index < 64, letterIndex (letter index) = index := by decide +kernel
theorem byteOf_eq {high low shift : Nat} {b : UInt8} (value : high * shift + low / (64 / shift) = b.toNat) :
    byteOf high low shift = b := by rw [byteOf,value,UInt8.ofNat_toNat]

theorem fromLetters_toLetters (bytes : List UInt8) : fromLetters (toLetters bytes) = bytes := by
  induction bytes using toLetters.induct with
  | case1 a b c rest ih =>
    have smallA := a.toNat_lt
    have smallB := b.toNat_lt
    have smallC := c.toNat_lt
    rw [toLetters,fromLetters,ih,letterIndex_letter _ (by omega),letterIndex_letter _ (by omega),
      letterIndex_letter _ (by omega),letterIndex_letter _ (by omega),byteOf_eq (b := a) (by omega),
      byteOf_eq (b := b) (by omega),byteOf_eq (b := c) (by omega)]
  | case2 a b =>
    have smallA := a.toNat_lt
    have smallB := b.toNat_lt
    rw [toLetters,fromLetters,letterIndex_letter _ (by omega),letterIndex_letter _ (by omega),
      letterIndex_letter _ (by omega),byteOf_eq (b := a) (by omega),byteOf_eq (b := b) (by omega)]
  | case3 a =>
    have smallA := a.toNat_lt
    rw [toLetters,fromLetters,letterIndex_letter _ (by omega),letterIndex_letter _ (by omega),
      byteOf_eq (b := a) (by omega)]
  | case4 => rfl

theorem fromBase64url_toBase64url (further : String → List UInt8) (bytes : List UInt8) :
    fromBase64url further (toBase64url bytes) = bytes := by
  have read : fromLetters (toBase64url bytes).toList = bytes := by
    rw [toBase64url,String.toList_ofList,fromLetters_toLetters]
  simp only [fromBase64url,read]
  rw [if_pos trivial]

/-- The letter of base64 for one of base64url. -/
def plainLetter (c : Char) : Char := if c = '-' then '+' else if c = '_' then '/' else c

def urlLetter (c : Char) : Char := if c = '+' then '-' else if c = '/' then '_' else c

/-- `buffer.toString('base64')`. -/
def toBase64 (bytes : List UInt8) : String :=
  let letters := (toLetters bytes).map plainLetter
  String.ofList (letters ++ List.replicate ((4 - letters.length % 4) % 4) '=')

/-- `Buffer.from(text,'base64')`. -/
def fromBase64 (further : String → List UInt8) (text : String) : List UInt8 :=
  let bytes := fromLetters ((text.toList.takeWhile (· ≠ '=')).map urlLetter)
  if toBase64 bytes = text then bytes else further text

theorem letter_listed : ∀ index < 64, letter index ∈ BASE64URL_ALPHABET := by decide +kernel

theorem toLetters_listed (bytes : List UInt8) : ∀ c ∈ toLetters bytes, c ∈ BASE64URL_ALPHABET := by
  induction bytes using toLetters.induct with
  | case1 a b c rest ih =>
    have smallA := a.toNat_lt
    have smallB := b.toNat_lt
    have smallC := c.toNat_lt
    simp only [toLetters,List.forall_mem_cons]
    exact ⟨letter_listed _ (by omega),letter_listed _ (by omega),letter_listed _ (by omega),letter_listed _ (by omega),ih⟩
  | case2 a b =>
    have smallA := a.toNat_lt
    have smallB := b.toNat_lt
    simp only [toLetters,List.forall_mem_cons]
    exact ⟨letter_listed _ (by omega),letter_listed _ (by omega),letter_listed _ (by omega),by simp⟩
  | case3 a =>
    have smallA := a.toNat_lt
    simp only [toLetters,List.forall_mem_cons]
    exact ⟨letter_listed _ (by omega),letter_listed _ (by omega),by simp⟩
  | case4 => simp [toLetters]

theorem plain_letters : ∀ c ∈ BASE64URL_ALPHABET, urlLetter (plainLetter c) = c ∧ plainLetter c ≠ '=' ∧ plainLetter c ≠ ':' := by
  have all : BASE64URL_ALPHABET.all (fun c =>
      urlLetter (plainLetter c) == c && plainLetter c != '=' && plainLetter c != ':') = true := by decide +kernel
  intro c listed
  simpa [and_assoc] using List.all_eq_true.mp all c listed

theorem fromBase64_toBase64 (further : String → List UInt8) (bytes : List UInt8) :
    fromBase64 further (toBase64 bytes) = bytes := by
  have plain : ∀ c ∈ (toLetters bytes).map plainLetter, (c ≠ '=' : Bool) = true := by
    intro c listed
    obtain ⟨d,inside,rfl⟩ := List.mem_map.mp listed
    simpa using (plain_letters d (toLetters_listed bytes d inside)).2.1
  have unpadded : (toBase64 bytes).toList.takeWhile (· ≠ '=') = (toLetters bytes).map plainLetter := by
    rw [toBase64,String.toList_ofList,List.takeWhile_append_of_pos plain]
    rcases (4 - ((toLetters bytes).map plainLetter).length % 4) % 4 with _ | more
    · simp
    · simp [List.replicate_succ]
  have back : ((toLetters bytes).map plainLetter).map urlLetter = toLetters bytes := by
    rw [List.map_map]
    exact (List.map_congr_left fun c inside => (plain_letters c (toLetters_listed bytes c inside)).1).trans (List.map_id _)
  simp only [fromBase64,unpadded,back,fromLetters_toLetters]
  rw [if_pos trivial]

theorem colon_toBase64 (bytes : List UInt8) : ':' ∉ (toBase64 bytes).toList := by
  rw [toBase64,String.toList_ofList,List.mem_append,List.mem_map,List.mem_replicate]
  rintro (⟨c,inside,colon⟩ | ⟨_,other⟩)
  · exact (plain_letters c (toLetters_listed bytes c inside)).2.2 colon
  · exact absurd other (by decide)

theorem utf8Text_utf8 (further : List UInt8 → String) (text : String) : utf8Text further (utf8 text) = text := by
  have bytes : (utf8 text).toByteArray = text.toByteArray := String.utf8Encode_toList
  rw [utf8Text,String.fromUTF8?,bytes,dif_pos text.isValidUTF8]
  rfl

end StellarAlerts.ByteTexts
