import StellarAlerts.DigitGroups
import StellarAlerts.Utf16Text

/-!
The StrKey encoding of the shared package: a version byte, a payload and the CRC16
checksum over both, written in base 32 without padding.
-/
namespace StellarAlerts.StrKey
open DigitGroups Utf16Text

inductive StellarStrKeyKind where
  | ed25519PublicKey
  | contractId
  | muxedAddress
deriving DecidableEq, Repr

inductive StellarValidationReason where
  | not_a_string
  | empty
  | wrong_length
  | invalid_base32
  | wrong_version_byte
  | invalid_checksum
deriving DecidableEq, Repr

/-- A value of unknown type. -/
inductive Unknown where
  | string (text : String)
  | other
deriving DecidableEq, Repr

def Unknown.asString : Unknown → String
  | .string text => text
  | .other => ""

inductive StellarValidationResult where
  | valid (kind : StellarStrKeyKind) (value : String)
  | invalid (kind : StellarStrKeyKind) (reason : StellarValidationReason) (value : Option String)
deriving DecidableEq, Repr

def BASE32_ALPHABET : List Char := "ABCDEFGHIJKLMNOPQRSTUVWXYZ234567".toList

def STRKEY_VERSION : StellarStrKeyKind → UInt8
  | .ed25519PublicKey => (6 : UInt8) <<< (3 : UInt8)
  | .contractId => (2 : UInt8) <<< (3 : UInt8)
  | .muxedAddress => (12 : UInt8) <<< (3 : UInt8)

def STRKEY_LENGTH : StellarStrKeyKind → Nat
  | .ed25519PublicKey => 56
  | .contractId => 56
  | .muxedAddress => 69

/-- The bits that wait, the buffer that holds them and the bytes so far. -/
structure Decoding where
  bits : Nat
  buffer : Nat
  bytes : List UInt8
deriving DecidableEq, Repr

/-- One round of the loop of `base32Decode`. -/
def Decoding.next (s : Decoding) (c : Char) : Option Decoding :=
  match BASE32_ALPHABET.idxOf? c with
  | none => none
  | some index =>
    let buffer := s.buffer <<< 5 ||| index
    let bits := s.bits + 5
    if 8 ≤ bits then
      let bits := bits - 8
      some ⟨bits,buffer &&& (1 <<< bits - 1),s.bytes ++ [UInt8.ofNat ((buffer >>> bits) &&& 0xff)]⟩
    else some ⟨bits,buffer &&& (1 <<< bits - 1),s.bytes⟩

def base32Decode (input : String) : Option (List UInt8) :=
  match input.toList.foldlM Decoding.next ⟨0,0,[]⟩ with
  | none => none
  | some s => if 0 < s.bits ∧ s.buffer ≠ 0 then none else some s.bytes

/-- The letter of five bits. -/
def letter (index : Nat) : Char := BASE32_ALPHABET.getD index 'A'

structure Encoding where
  bits : Nat
  buffer : Nat
  out : List Char
deriving DecidableEq, Repr

/-- The inner loop of `base32Encode`: the bits that are left and the letters. -/
def drain (buffer : Nat) : Nat → List Char → Nat × List Char
  | bits + 5, out => drain buffer bits (out ++ [letter ((buffer >>> bits) &&& 0x1f)])
  | bits, out => (bits,out)

/-- One round of the loop of `base32Encode`. -/
def Encoding.next (s : Encoding) (byte : UInt8) : Encoding :=
  let buffer := s.buffer <<< 8 ||| byte.toNat
  let (bits,out) := drain buffer (s.bits + 8) s.out
  ⟨bits,buffer &&& (1 <<< bits - 1),out⟩

def base32Encode (bytes : List UInt8) : String :=
  let s := bytes.foldl Encoding.next ⟨0,0,[]⟩
  String.ofList (if 0 < s.bits then s.out ++ [letter ((s.buffer <<< (5 - s.bits)) &&& 0x1f)] else s.out)

def crcBit (crc : BitVec 16) : BitVec 16 := if crc &&& 0x8000#16 ≠ 0#16 then crc <<< 1 ^^^ 0x1021#16 else crc <<< 1
def crcByte (crc : BitVec 16) (byte : UInt8) : BitVec 16 :=
  crcBit^[8] (crc ^^^ BitVec.ofNat 16 (byte.toNat <<< 8))
def crc16Xmodem (bytes : List UInt8) : Nat := (bytes.foldl crcByte 0#16).toNat

def checksumBytes (body : List UInt8) : List UInt8 :=
  let checksum := crc16Xmodem body
  [UInt8.ofNat (checksum &&& 0xff),UInt8.ofNat ((checksum >>> 8) &&& 0xff)]

def encodeStrKey (versionByte : UInt8) (payload : List UInt8) : String :=
  let body := versionByte :: payload
  base32Encode (body ++ checksumBytes body)

def decodeStrKey (value : Unknown) (kind : StellarStrKeyKind) :
    Except (StellarValidationReason × Option String) (List UInt8) :=
  match value with
  | .other => .error (.not_a_string,none)
  | .string value =>
    if utf16Length value = 0 then .error (.empty,some value)
    else if utf16Length value ≠ STRKEY_LENGTH kind then .error (.wrong_length,some value)
    else
      match base32Decode value with
      | none => .error (.invalid_base32,some value)
      | some decoded =>
        if decoded.length < 3 then .error (.wrong_length,some value)
        else if decoded.getD 0 0 ≠ STRKEY_VERSION kind then .error (.wrong_version_byte,some value)
        else
          let payload := decoded.take (decoded.length - 2)
          let checksum :=
            (decoded.getD (decoded.length - 2) 0).toNat ||| (decoded.getD (decoded.length - 1) 0).toNat <<< 8
          if crc16Xmodem payload ≠ checksum then .error (.invalid_checksum,some value) else .ok decoded

def validateStrKey (value : Unknown) (kind : StellarStrKeyKind) : StellarValidationResult :=
  match decodeStrKey value kind with
  | .ok _ => .valid kind value.asString
  | .error (reason,text) => .invalid kind reason text

/-! ### The loops on numbers -/

theorem shifted_or (buffer n : Nat) {digit : Nat} (small : digit < 2 ^ n) :
    buffer <<< n ||| digit = buffer * 2 ^ n + digit := by
  rw [← Nat.shiftLeft_add_eq_or_of_lt small,Nat.shiftLeft_eq]

theorem masked (buffer bits : Nat) : buffer &&& (1 <<< bits - 1) = buffer % 2 ^ bits := by
  rw [Nat.one_shiftLeft,Nat.and_two_pow_sub_one_eq_mod]

theorem byte_of (buffer bits : Nat) : (buffer >>> bits) &&& 0xff = buffer / 2 ^ bits % 256 := by
  rw [Nat.shiftRight_eq_div_pow]
  exact Nat.and_two_pow_sub_one_eq_mod _ 8

theorem five_of (n : Nat) : n &&& 0x1f = n % 32 := Nat.and_two_pow_sub_one_eq_mod n 5
theorem byte_toNat {n : Nat} (small : n < 256) : (UInt8.ofNat (n % 256)).toNat = n := by
  rw [UInt8.toNat_ofNat',Nat.mod_mod,Nat.mod_eq_of_lt small]

/-! ### Letters -/

theorem idxOf_letter : ∀ d < 32, BASE32_ALPHABET.idxOf? (letter d) = some d := by decide
theorem letter_basic : ∀ d < 32, (letter d).toNat < 0x10000 := by decide
theorem alphabet_length : BASE32_ALPHABET.length = 32 := by decide

theorem letter_of_idxOf {c : Char} {index : Nat} (found : BASE32_ALPHABET.idxOf? c = some index) :
    index < 32 ∧ letter index = c := by
  obtain ⟨inside,same,_⟩ := List.idxOf?_eq_some_iff.mp found
  refine ⟨alphabet_length ▸ inside,?_⟩
  rw [letter,List.getD_eq_getElem?_getD,List.getElem?_eq_getElem inside,Option.getD_some,same]

/-! ### Decoding -/

def Decoding.Read (s : Decoding) (digits : List Nat) : Prop :=
  s.bits < 8 ∧ Carried 5 8 digits (s.bytes.map UInt8.toNat) s.bits s.buffer

variable {s : Decoding}

theorem read_next {digits : List Nat} (read : s.Read digits) {c : Char} {index : Nat}
    (found : BASE32_ALPHABET.idxOf? c = some index) : ∃ s', s.next c = some s' ∧ s'.Read (digits ++ [index]) := by
  obtain ⟨few,carried⟩ := read
  have small : index < 2 ^ 5 := (letter_of_idxOf found).1
  have taken := carried_take carried small
  by_cases full : 8 ≤ s.bits + 5
  · simp only [Decoding.next,found,full,↓reduceIte,Option.some.injEq,exists_eq_left',shifted_or _ 5 small,masked,byte_of]
    rw [show s.bits + 5 = s.bits + 5 - 8 + 8 by omega] at taken
    have emitted := carried_emit taken
    have byte : (s.buffer * 2 ^ 5 + index) / 2 ^ (s.bits + 5 - 8) < 256 := emitted.digits _ (by simp)
    refine ⟨by show s.bits + 5 - 8 < 8; omega,?_⟩
    rwa [List.map_append,List.map_singleton,byte_toNat byte]
  · simp only [Decoding.next,found,full,↓reduceIte,Option.some.injEq,exists_eq_left',shifted_or _ 5 small,masked]
    refine ⟨by show s.bits + 5 < 8; omega,?_⟩
    rwa [Nat.mod_eq_of_lt taken.small]

theorem read_letters {before digits : List Nat} (read : s.Read before) (small : ∀ d ∈ digits, d < 32) :
    ∃ s', (digits.map letter).foldlM Decoding.next s = some s' ∧ s'.Read (before ++ digits) := by
  induction digits generalizing s before with
  | nil => exact ⟨s,rfl,by simpa using read⟩
  | cons d rest ih =>
    obtain ⟨s',nextIs,read'⟩ := read_next read (idxOf_letter d (small d (by simp)))
    obtain ⟨last,lastIs,read''⟩ := ih read' fun e listed => small e (by simp [listed])
    refine ⟨last,?_,by simpa using read''⟩
    rw [List.map_cons,List.foldlM_cons,nextIs]
    exact lastIs

theorem letters_of_read {s' : Decoding} {word : List Char} (read : word.foldlM Decoding.next s = some s') :
    ∃ digits : List Nat, word = digits.map letter ∧ ∀ d ∈ digits, d < 32 := by
  induction word generalizing s with
  | nil => exact ⟨[],rfl,by simp⟩
  | cons c rest ih =>
    rw [List.foldlM_cons] at read
    cases found : BASE32_ALPHABET.idxOf? c with
    | none => simp [Decoding.next,found] at read
    | some index =>
      obtain ⟨small,same⟩ := letter_of_idxOf found
      cases nextIs : s.next c with
      | none => simp [nextIs] at read
      | some middle =>
        simp only [nextIs,Option.bind_eq_bind,Option.bind_some] at read
        obtain ⟨digits,rfl,others⟩ := ih read
        refine ⟨index :: digits,by rw [List.map_cons,same],?_⟩
        intro d listed
        rcases List.mem_cons.mp listed with rfl | later
        · exact small
        · exact others d later

theorem read_start : Decoding.Read ⟨0,0,[]⟩ [] := ⟨by decide,carried_nil 5 8⟩

theorem base32Decode_iff (input : String) (bytes : List UInt8) :
    base32Decode input = some bytes ↔
      ∃ (digits : List Nat) (fill : Nat), input = String.ofList (digits.map letter) ∧ (∀ d ∈ digits, d < 32) ∧
        Padded 5 8 digits (bytes.map UInt8.toNat) fill ∧ fill < 8 := by
  have byteSmall : ∀ list : List UInt8, ∀ d ∈ list.map UInt8.toNat, d < 2 ^ 8 := by
    intro list d listed
    obtain ⟨b,_,rfl⟩ := List.mem_map.mp listed
    exact b.toNat_lt
  constructor
  · intro decoded
    unfold base32Decode at decoded
    cases folded : input.toList.foldlM Decoding.next ⟨0,0,[]⟩ with
    | none => simp [folded] at decoded
    | some s =>
      obtain ⟨digits,wordIs,small⟩ := letters_of_read folded
      obtain ⟨s',again,few,carried⟩ := read_letters read_start small
      obtain rfl : s' = s := by
        rw [← wordIs,folded] at again
        exact (Option.some.inj again).symm
      simp only [folded,Option.ite_none_left_eq_some,Option.some.injEq] at decoded
      obtain ⟨zeros,rfl⟩ := decoded
      refine ⟨digits,s'.bits,by rw [← wordIs,String.ofList_toList],small,?_,few⟩
      rw [List.nil_append] at carried
      by_cases waiting : 0 < s'.bits
      · have empty : s'.buffer = 0 := by
          by_contra some_
          exact zeros ⟨waiting,some_⟩
        rw [empty] at carried
        exact carried.zeros
      · have none_ : s'.bits = 0 := by omega
        have empty : s'.buffer = 0 := by
          have less := carried.small
          rw [none_] at less
          simpa using less
        rw [empty] at carried
        exact carried.zeros
  · rintro ⟨digits,fill,rfl,small,padded,few⟩
    obtain ⟨s,folded,fewer,carried⟩ := read_letters read_start small
    rw [List.nil_append] at carried
    have empty := buffer_of_padded padded carried few fewer
    rw [empty] at carried
    have equal := padded_source carried.zeros padded fewer few (byteSmall _) (byteSmall _)
    have bytesAre : s.bytes = bytes := List.map_injective_iff.mpr (fun a b => UInt8.toNat_inj.mp) equal
    simp [base32Decode,folded,empty,bytesAre]

/-! ### Encoding -/

/-- The loop has written these bytes. -/
def Encoding.Wrote (s : Encoding) (bytes : List Nat) : Prop :=
  s.bits < 5 ∧ ∃ digits, s.out = digits.map letter ∧ Carried 8 5 bytes digits s.bits s.buffer

theorem drain_wrote {buffer bits : Nat} {bytes digits : List Nat} (carried : Carried 8 5 bytes digits bits (buffer % 2 ^ bits)) :
    ∃ rest more, drain buffer bits (digits.map letter) = (rest,more.map letter) ∧ rest < 5 ∧
      Carried 8 5 bytes more rest (buffer % 2 ^ rest) := by
  induction bits using Nat.strongRecOn generalizing digits with
  | ind bits ih =>
    by_cases several : 5 ≤ bits
    · obtain ⟨fewer,rfl⟩ := Nat.exists_eq_add_of_le' several
      have emitted := carried_emit carried
      have digitIs : buffer % 2 ^ (fewer + 5) / 2 ^ fewer = buffer / 2 ^ fewer % 32 := by
        rw [Nat.pow_add]
        exact Nat.mod_mul_right_div_self ..
      have restIs : buffer % 2 ^ (fewer + 5) % 2 ^ fewer = buffer % 2 ^ fewer :=
        Nat.mod_mod_of_dvd _ (Nat.pow_dvd_pow 2 (by omega))
      rw [digitIs,restIs] at emitted
      obtain ⟨rest,more,drained,few,last⟩ := ih fewer (by omega) emitted
      refine ⟨rest,more,?_,few,last⟩
      rw [drain,five_of,Nat.shiftRight_eq_div_pow]
      simpa using drained
    · refine ⟨bits,digits,?_,by omega,carried⟩
      have cases : bits = 0 ∨ bits = 1 ∨ bits = 2 ∨ bits = 3 ∨ bits = 4 := by omega
      rcases cases with rfl | rfl | rfl | rfl | rfl <;> rfl

theorem wrote_next {s : Encoding} {bytes : List Nat} (wrote : s.Wrote bytes) (byte : UInt8) :
    (s.next byte).Wrote (bytes ++ [byte.toNat]) := by
  obtain ⟨few,digits,outIs,carried⟩ := wrote
  have small : byte.toNat < 2 ^ 8 := byte.toNat_lt
  have taken := carried_take carried small
  have whole : (s.buffer * 2 ^ 8 + byte.toNat) % 2 ^ (s.bits + 8) = s.buffer * 2 ^ 8 + byte.toNat :=
    Nat.mod_eq_of_lt taken.small
  obtain ⟨rest,more,drained,fewer,last⟩ := drain_wrote (whole.symm ▸ taken)
  have nextIs : s.next byte = ⟨rest,(s.buffer * 2 ^ 8 + byte.toNat) % 2 ^ rest,more.map letter⟩ := by
    simp only [Encoding.next,shifted_or _ 8 small,outIs,drained,masked]
  rw [nextIs]
  exact ⟨fewer,more,rfl,last⟩

theorem wrote_all {s : Encoding} {before : List Nat} (wrote : s.Wrote before) (bytes : List UInt8) :
    (bytes.foldl Encoding.next s).Wrote (before ++ bytes.map UInt8.toNat) := by
  induction bytes generalizing s before with
  | nil => simpa using wrote
  | cons byte rest ih => simpa using ih (wrote_next wrote byte)

/-- Bytes are written by letters, with fewer zero bits at the end than a letter holds. -/
theorem base32Encode_padded (bytes : List UInt8) :
    ∃ (digits : List Nat) (fill : Nat), base32Encode bytes = String.ofList (digits.map letter) ∧
      (∀ d ∈ digits, d < 32) ∧ Padded 5 8 digits (bytes.map UInt8.toNat) fill ∧ fill < 5 := by
  have start : Encoding.Wrote ⟨0,0,[]⟩ [] := ⟨by decide,[],rfl,carried_nil 8 5⟩
  obtain ⟨few,digits,outIs,carried⟩ := wrote_all start bytes
  unfold base32Encode
  generalize bytes.foldl Encoding.next ⟨0,0,[]⟩ = s at few outIs carried
  rw [List.nil_append] at carried
  by_cases waiting : 0 < s.bits
  · have last : s.buffer * 2 ^ (5 - s.bits) < 32 := by
      have whole : (32 : Nat) = 2 ^ s.bits * 2 ^ (5 - s.bits) := by
        rw [← Nat.pow_add,Nat.add_sub_cancel' (by omega)]
      rw [whole]
      exact Nat.mul_lt_mul_of_pos_right carried.small (Nat.two_pow_pos _)
    refine ⟨digits ++ [s.buffer * 2 ^ (5 - s.bits)],5 - s.bits,?_,?_,carried.finish (by omega),by omega⟩
    · simp only [waiting,↓reduceIte,outIs,five_of,Nat.shiftLeft_eq,Nat.mod_eq_of_lt last,List.map_append,
        List.map_singleton]
    · intro d listed
      rcases List.mem_append.mp listed with before | final
      · exact carried.digits d before
      · rw [List.mem_singleton.mp final]
        exact last
  · have none_ : s.bits = 0 := by omega
    rw [none_] at carried
    exact ⟨digits,0,by simp [waiting,outIs],carried.digits,carried.exact,by decide⟩

theorem base32Decode_base32Encode (bytes : List UInt8) : base32Decode (base32Encode bytes) = some bytes := by
  obtain ⟨digits,fill,textIs,small,padded,few⟩ := base32Encode_padded bytes
  exact (base32Decode_iff _ _).mpr ⟨digits,fill,textIs,small,padded,by omega⟩

theorem base32Encode_of_decoded {input : String} {bytes : List UInt8} (decoded : base32Decode input = some bytes)
    (canonical : 5 * input.toList.length % 8 < 5) : input = base32Encode bytes := by
  obtain ⟨digits,fill,rfl,small,padded,few⟩ := (base32Decode_iff _ _).mp decoded
  obtain ⟨digits',fill',textIs,small',padded',few'⟩ := base32Encode_padded bytes
  have counted := padded.counted
  rw [String.toList_ofList,List.length_map,counted,Nat.mul_add_mod,Nat.mod_eq_of_lt few] at canonical
  rw [textIs,padded_target padded padded' canonical few' small small']

theorem base32Decode_length {input : String} {bytes : List UInt8} (decoded : base32Decode input = some bytes) :
    utf16Length input = input.toList.length ∧ bytes.length = 5 * input.toList.length / 8 := by
  obtain ⟨digits,fill,rfl,small,padded,few⟩ := (base32Decode_iff _ _).mp decoded
  have counted := padded.counted
  rw [List.length_map] at counted
  refine ⟨utf16Length_basic ?_,by rw [String.toList_ofList,List.length_map,counted]; omega⟩
  intro c listed
  rw [String.toList_ofList] at listed
  obtain ⟨d,inside,rfl⟩ := List.mem_map.mp listed
  exact letter_basic d (small d inside)

theorem base32Encode_length (bytes : List UInt8) :
    utf16Length (base32Encode bytes) = (8 * bytes.length + 4) / 5 := by
  obtain ⟨digits,fill,textIs,_,padded,few⟩ := base32Encode_padded bytes
  have counted := padded.counted
  rw [List.length_map] at counted
  rw [(base32Decode_length (base32Decode_base32Encode bytes)).1,textIs,String.toList_ofList,List.length_map]
  omega

/-! ### Keys -/

def payloadLength : StellarStrKeyKind → Nat
  | .ed25519PublicKey => 32
  | .contractId => 32
  | .muxedAddress => 40

def keyBytes (kind : StellarStrKeyKind) (payload : List UInt8) : List UInt8 :=
  STRKEY_VERSION kind :: payload ++ checksumBytes (STRKEY_VERSION kind :: payload)
def payloadOf (bytes : List UInt8) : List UInt8 := (bytes.take (bytes.length - 2)).drop 1

theorem keyBytes_length (kind : StellarStrKeyKind) (payload : List UInt8) :
    (keyBytes kind payload).length = payload.length + 3 := by
  simp [keyBytes,checksumBytes]

theorem crc_small (bytes : List UInt8) : crc16Xmodem bytes < 65536 := (bytes.foldl crcByte 0#16).isLt

theorem checksumBytes_eq_iff (body : List UInt8) (low high : UInt8) :
    checksumBytes body = [low,high] ↔ crc16Xmodem body = low.toNat ||| high.toNat <<< 8 := by
  have small := crc_small body
  have lowSmall : low.toNat < 256 := low.toNat_lt
  have highSmall : high.toNat < 256 := high.toNat_lt
  rw [Nat.or_comm,shifted_or high.toNat 8 lowSmall]
  simp only [checksumBytes,List.cons.injEq,and_true]
  rw [← UInt8.toNat_inj,← UInt8.toNat_inj]
  have lows : crc16Xmodem body &&& 0xff = crc16Xmodem body % 256 := Nat.and_two_pow_sub_one_eq_mod _ 8
  simp only [lows,byte_of,UInt8.toNat_ofNat']
  omega

theorem split_bytes {bytes : List UInt8} (long : 3 ≤ bytes.length) :
    ∃ first middle low high, bytes = first :: middle ++ [low,high] := by
  obtain ⟨first,rest,rfl⟩ := List.exists_cons_of_length_pos (by omega : 0 < bytes.length)
  rcases List.eq_nil_or_concat rest with rfl | ⟨rest,high,rfl⟩
  · simp at long
  · rcases List.eq_nil_or_concat rest with rfl | ⟨middle,low,rfl⟩
    · simp at long
    · exact ⟨first,middle,low,high,by simp⟩

theorem split_low (first : UInt8) (middle : List UInt8) (low high : UInt8) :
    (first :: middle ++ [low,high]).getD ((first :: middle ++ [low,high]).length - 2) 0 = low := by
  simp [List.getD_eq_getElem?_getD]

theorem split_high (first : UInt8) (middle : List UInt8) (low high : UInt8) :
    (first :: middle ++ [low,high]).getD ((first :: middle ++ [low,high]).length - 1) 0 = high := by
  simp [List.getD_eq_getElem?_getD]

theorem split_body (first : UInt8) (middle : List UInt8) (low high : UInt8) :
    (first :: middle ++ [low,high]).take ((first :: middle ++ [low,high]).length - 2) = first :: middle := by
  simp

theorem payloadOf_keyBytes (kind : StellarStrKeyKind) (payload : List UInt8) :
    payloadOf (keyBytes kind payload) = payload := by
  simp [payloadOf,keyBytes,checksumBytes]

theorem decoded_kind {value : String} {kind : StellarStrKeyKind} {decoded : List UInt8}
    (length : utf16Length value = STRKEY_LENGTH kind) (decodes : base32Decode value = some decoded) :
    value = base32Encode decoded ∧ decoded.length = payloadLength kind + 3 := by
  obtain ⟨units,bytes⟩ := base32Decode_length decodes
  rw [units] at length
  rw [length] at bytes
  refine ⟨base32Encode_of_decoded decodes ?_,?_⟩
  · rw [length]
    cases kind <;> decide
  · rw [bytes]
    cases kind <;> rfl

theorem length_positive (kind : StellarStrKeyKind) : STRKEY_LENGTH kind ≠ 0 := by cases kind <;> decide

theorem decodeStrKey_checks (value : String) (kind : StellarStrKeyKind) (bytes : List UInt8) :
    decodeStrKey (.string value) kind = .ok bytes ↔
      utf16Length value = STRKEY_LENGTH kind ∧ base32Decode value = some bytes ∧ 3 ≤ bytes.length ∧
        bytes.getD 0 0 = STRKEY_VERSION kind ∧
        crc16Xmodem (bytes.take (bytes.length - 2)) =
          (bytes.getD (bytes.length - 2) 0).toNat ||| (bytes.getD (bytes.length - 1) 0).toNat <<< 8 := by
  by_cases length : utf16Length value = STRKEY_LENGTH kind
  · cases decodes : base32Decode value with
    | none => simp [decodeStrKey,length,decodes,length_positive kind]
    | some decoded =>
      simp only [decodeStrKey,length,decodes,length_positive kind,↓reduceIte,ne_eq,not_true_eq_false,true_and]
      constructor
      · intro checked
        split at checked
        · cases checked
        next long =>
        split at checked
        · cases checked
        next versionIs =>
        split at checked
        · cases checked
        next checksumIs =>
        injection checked with same
        subst same
        exact ⟨rfl,by omega,not_not.mp versionIs,not_not.mp checksumIs⟩
      · rintro ⟨same,long,versionIs,checksumIs⟩
        injection same with same
        subst same
        rw [if_neg (by omega),if_neg (not_not_intro versionIs),if_neg (not_not_intro checksumIs)]
  · simp only [length,false_and,iff_false]
    intro checked
    by_cases empty : utf16Length value = 0
    · simp [decodeStrKey,empty] at checked
    · simp [decodeStrKey,empty,length] at checked

theorem decodeStrKey_ok_iff (value : String) (kind : StellarStrKeyKind) (bytes : List UInt8) :
    decodeStrKey (.string value) kind = .ok bytes ↔
      ∃ payload, payload.length = payloadLength kind ∧ value = encodeStrKey (STRKEY_VERSION kind) payload ∧
        bytes = keyBytes kind payload := by
  rw [decodeStrKey_checks]
  constructor
  · rintro ⟨length,decodes,long,versionIs,checksumIs⟩
    obtain ⟨valueIs,bytesLength⟩ := decoded_kind length decodes
    obtain ⟨first,middle,low,high,rfl⟩ := split_bytes long
    rw [split_low,split_high,split_body] at checksumIs
    have firstIs : first = STRKEY_VERSION kind := versionIs
    have written := (checksumBytes_eq_iff (first :: middle) low high).mpr checksumIs
    refine ⟨middle,by simpa using bytesLength,?_,?_⟩
    · rw [valueIs,encodeStrKey,← firstIs,written]
    · rw [keyBytes,← firstIs,written]
  · rintro ⟨payload,length,rfl,rfl⟩
    refine ⟨?_,base32Decode_base32Encode _,by rw [keyBytes_length]; omega,rfl,?_⟩
    · have written := base32Encode_length (keyBytes kind payload)
      rw [keyBytes_length,length] at written
      refine Eq.trans written ?_
      cases kind <;> rfl
    · obtain ⟨low,high,sum⟩ : ∃ low high, checksumBytes (STRKEY_VERSION kind :: payload) = [low,high] := ⟨_,_,rfl⟩
      rw [keyBytes,sum,split_low,split_high,split_body]
      exact (checksumBytes_eq_iff _ low high).mp sum

theorem validateStrKey_valid_iff (value : String) (kind : StellarStrKeyKind) :
    validateStrKey (.string value) kind = .valid kind value ↔ ∃ bytes, decodeStrKey (.string value) kind = .ok bytes := by
  unfold validateStrKey
  cases decodeStrKey (.string value) kind with
  | ok bytes => simp [Unknown.asString]
  | error found => simp

/-- A text is accepted as a key of a kind exactly where it is the encoding of a payload of the kind; the encoding of a payload is
    decoded to its version byte and the payload; and two keys of a kind with the same payload are the same text. -/
theorem strKey_exact (kind : StellarStrKeyKind) :
    (∀ s, validateStrKey (.string s) kind = .valid kind s ↔
      ∃ payload, payload.length = payloadLength kind ∧ s = encodeStrKey (STRKEY_VERSION kind) payload) ∧
    (∀ payload, payload.length = payloadLength kind →
      ∃ bytes, decodeStrKey (.string (encodeStrKey (STRKEY_VERSION kind) payload)) kind = .ok bytes ∧
        (bytes.getD 0 0,payloadOf bytes) = (STRKEY_VERSION kind,payload)) ∧
    ∀ s s' bytes bytes', decodeStrKey (.string s) kind = .ok bytes → decodeStrKey (.string s') kind = .ok bytes' →
      payloadOf bytes = payloadOf bytes' → s = s' := by
  refine ⟨?_,?_,?_⟩
  · intro s
    rw [validateStrKey_valid_iff]
    constructor
    · rintro ⟨bytes,decodes⟩
      obtain ⟨payload,length,encoded,_⟩ := (decodeStrKey_ok_iff s kind bytes).mp decodes
      exact ⟨payload,length,encoded⟩
    · rintro ⟨payload,length,encoded⟩
      exact ⟨_,(decodeStrKey_ok_iff s kind _).mpr ⟨payload,length,encoded,rfl⟩⟩
  · intro payload length
    refine ⟨keyBytes kind payload,(decodeStrKey_ok_iff _ kind _).mpr ⟨payload,length,rfl,rfl⟩,?_⟩
    rw [payloadOf_keyBytes]
    rfl
  · intro s s' bytes bytes' decodes decodes' same
    obtain ⟨payload,_,rfl,rfl⟩ := (decodeStrKey_ok_iff s kind bytes).mp decodes
    obtain ⟨payload',_,rfl,rfl⟩ := (decodeStrKey_ok_iff s' kind bytes').mp decodes'
    rw [payloadOf_keyBytes,payloadOf_keyBytes] at same
    rw [same]

example : encodeStrKey (STRKEY_VERSION .ed25519PublicKey) (List.replicate 32 0) =
    "GAAAAAAAAAAAAAAAAAAAAAAAAAAAAAAAAAAAAAAAAAAAAAAAAAAAAWHF" := by decide +kernel

end StellarAlerts.StrKey
