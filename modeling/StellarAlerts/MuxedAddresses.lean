import StellarAlerts.PositionalDigits
import StellarAlerts.StrKey

/-!
Muxed addresses of the shared package: the key of an account and an id of eight bytes in one StrKey.
The id is written in decimal by a long multiplication over an array of digits, so the text is the
number itself for all 64 bits (`parseMuxedAddress_exact`).
-/
namespace StellarAlerts.MuxedAddresses
open PositionalDigits StrKey

structure MuxedAddressParts where
  accountId : String
  id : String
deriving DecidableEq, Repr

/-- One round of the loop of `bytesToDecimalString`; the digits stand with the least first.
    The carry is divided by ten until it is zero, which takes fewer rounds than its value. -/
def addByte (digits : List Nat) (byte : UInt8) : List Nat :=
  let (scaled,carry) := scale 10 256 byte.toNat digits
  scaled ++ spill 10 carry carry

def bytesToDecimalString (bytes : List UInt8) : String :=
  String.join ((bytes.foldl addByte [0]).reverse.map toString)

def parseMuxedAddress (value : Unknown) : Option MuxedAddressParts :=
  match decodeStrKey value .muxedAddress with
  | .error _ => none
  | .ok bytes =>
    some ⟨encodeStrKey (STRKEY_VERSION .ed25519PublicKey) ((bytes.drop 1).take 32),
      bytesToDecimalString ((bytes.drop 33).take 8)⟩

/-- The number that bytes are, with the most significant first. -/
def bigEndian (bytes : List UInt8) : Nat := bytes.foldl (fun n byte => n * 256 + byte.toNat) 0

theorem addByte_canonical (n : Nat) (byte : UInt8) :
    addByte (canonical 10 n) byte = canonical 10 (n * 256 + byte.toNat) :=
  scale_canonical (by decide : 1 < 10) (by decide) n byte.toNat

theorem digits_canonical (bytes : List UInt8) (n : Nat) :
    bytes.foldl addByte (canonical 10 n) = canonical 10 (bytes.foldl (fun n byte => n * 256 + byte.toNat) n) := by
  induction bytes generalizing n with
  | nil => rfl
  | cons byte rest ih => rw [List.foldl_cons,addByte_canonical,ih,List.foldl_cons]

theorem canonical_toDigits (n : Nat) : (canonical 10 n).reverse.flatMap (Nat.toDigits 10) = Nat.toDigits 10 n := by
  induction n using Nat.strongRecOn with
  | ind n ih =>
    by_cases small : n < 10
    · have single : canonical 10 n = [n] := by
        unfold canonical
        split
        · rename_i zero
          rw [zero]
        · rename_i some_
          exact Nat.digits_of_lt 10 n some_ small
      rw [single]
      simp
    · have tens : canonical 10 n = n % 10 :: canonical 10 (n / 10) := by
        rw [canonical,canonical,if_neg (by omega),if_neg (by omega)]
        exact Nat.digits_def' (by decide) (by omega)
      rw [tens,List.reverse_cons,List.flatMap_append,ih (n / 10) (by omega),List.flatMap_singleton,
        Nat.toDigits_of_base_le (by decide) (by omega : 10 ≤ n),Nat.toDigits_of_lt_base (Nat.mod_lt n (by decide))]

theorem canonical_text (n : Nat) : String.join ((canonical 10 n).reverse.map toString) = toString n := by
  apply String.toList_injective
  rw [String.toList_join,List.flatMap_map,Nat.toString_eq_repr,Nat.toList_repr]
  refine Eq.trans (List.flatMap_congr fun d _ => ?_) (canonical_toDigits n)
  rw [Nat.toString_eq_repr,Nat.toList_repr]

theorem bytesToDecimalString_eq (bytes : List UInt8) : bytesToDecimalString bytes = toString (bigEndian bytes) := by
  have digitsAre := digits_canonical bytes 0
  rw [show canonical 10 0 = [0] from rfl] at digitsAre
  rw [bytesToDecimalString,digitsAre]
  exact canonical_text _

/-- The eight bytes of an id, the most significant first. -/
def idBytes (id : UInt64) : List UInt8 := [56,48,40,32,24,16,8,0].map fun shift => UInt8.ofNat (id.toNat >>> shift)

def muxedKey (key : List UInt8) (id : UInt64) : String :=
  encodeStrKey (STRKEY_VERSION .muxedAddress) (key ++ idBytes id)

theorem shift_byte (n shift : Nat) : (n >>> (shift + 8)) * 256 + n >>> shift % 256 = n >>> shift := by
  rw [Nat.shiftRight_add,Nat.shiftRight_eq_div_pow _ 8]
  exact Nat.div_add_mod' _ 256

theorem bigEndian_idBytes (id : UInt64) : bigEndian (idBytes id) = id.toNat := by
  have top : id.toNat >>> 56 < 256 := by
    rw [Nat.shiftRight_eq_div_pow]
    exact Nat.div_lt_of_lt_mul id.toNat_lt
  simp only [bigEndian,idBytes,List.map_cons,List.map_nil,List.foldl_cons,List.foldl_nil,UInt8.toNat_ofNat']
  rw [Nat.zero_mul,Nat.zero_add,Nat.mod_eq_of_lt top]
  -- each round brings eight more bits of the number back
  iterate 7 rw [shift_byte]
  rfl

theorem bigEndian_concat (bytes : List UInt8) (byte : UInt8) :
    bigEndian (bytes ++ [byte]) = bigEndian bytes * 256 + byte.toNat := by
  rw [bigEndian,List.foldl_append]
  rfl

theorem bigEndian_lt (bytes : List UInt8) : bigEndian bytes < 256 ^ bytes.length := by
  induction bytes using List.reverseRecOn with
  | nil => exact Nat.one_pos
  | append_singleton bytes byte ih =>
    have small : byte.toNat < 256 := byte.toNat_lt
    rw [bigEndian_concat,List.length_append,List.length_singleton,Nat.pow_succ]
    omega

theorem bigEndian_injective {left right : List UInt8} (long : left.length = right.length)
    (same : bigEndian left = bigEndian right) : left = right := by
  induction left using List.reverseRecOn generalizing right with
  | nil => exact (List.length_eq_zero_iff.mp long.symm).symm
  | append_singleton left byte ih =>
    obtain ⟨right,last,rfl⟩ := List.eq_nil_or_concat' right |>.resolve_left (by rintro rfl; simp at long)
    have small : byte.toNat < 256 := byte.toNat_lt
    have smallLast : last.toNat < 256 := last.toNat_lt
    rw [bigEndian_concat,bigEndian_concat] at same
    rw [ih (by simpa using long) (by omega),UInt8.toNat_inj.mp (by omega : byte.toNat = last.toNat)]

theorem idBytes_surjective {bytes : List UInt8} (eight : bytes.length = 8) : ∃ id, idBytes id = bytes := by
  refine ⟨UInt64.ofNat (bigEndian bytes),bigEndian_injective eight.symm ?_⟩
  have small := bigEndian_lt bytes
  rw [eight] at small
  rw [bigEndian_idBytes,UInt64.toNat_ofNat']
  exact Nat.mod_eq_of_lt small

theorem muxedKey_of_payload {payload : List UInt8} (forty : payload.length = 40) :
    ∃ key id, key.length = 32 ∧ encodeStrKey (STRKEY_VERSION .muxedAddress) payload = muxedKey key id := by
  obtain ⟨id,idIs⟩ := idBytes_surjective (by simp [forty] : (payload.drop 32).length = 8)
  refine ⟨payload.take 32,id,by simp [forty],?_⟩
  rw [muxedKey,idIs,List.take_append_drop]

/-- The key of an account with an id is taken apart into the account's own key and the decimal text
    of the id, zero as "0"; and nothing else is parsed. -/
theorem parseMuxedAddress_exact :
    (∀ (key : List UInt8) (id : UInt64), key.length = 32 → parseMuxedAddress (.string (muxedKey key id)) =
      some ⟨encodeStrKey (STRKEY_VERSION .ed25519PublicKey) key,toString id.toNat⟩) ∧
    ∀ value, (∀ (key : List UInt8) (id : UInt64), key.length = 32 → value ≠ .string (muxedKey key id)) →
      parseMuxedAddress value = none := by
  constructor
  · intro key id long
    have eight : (idBytes id).length = 8 := rfl
    have decodes := (decodeStrKey_ok_iff (muxedKey key id) .muxedAddress _).mpr
      ⟨key ++ idBytes id,by simp [long,eight,payloadLength],rfl,rfl⟩
    have keyIs : ((keyBytes .muxedAddress (key ++ idBytes id)).drop 1).take 32 = key := by
      simp [keyBytes,List.append_assoc,long]
    have idIs : ((keyBytes .muxedAddress (key ++ idBytes id)).drop 33).take 8 = idBytes id := by
      simp [keyBytes,List.append_assoc,long,eight]
    simp only [parseMuxedAddress,decodes,keyIs,idIs]
    rw [bytesToDecimalString_eq,bigEndian_idBytes]
  · intro value foreign
    unfold parseMuxedAddress
    cases value with
    | other => rfl
    | string text =>
      cases decodes : decodeStrKey (.string text) .muxedAddress with
      | error _ => rfl
      | ok bytes =>
        obtain ⟨payload,forty,rfl,_⟩ := (decodeStrKey_ok_iff text .muxedAddress bytes).mp decodes
        obtain ⟨key,id,long,same⟩ := muxedKey_of_payload forty
        exact absurd (congrArg Unknown.string same) (foreign key id long)

end StellarAlerts.MuxedAddresses
