import StellarAlerts.CyclicCodes
import StellarAlerts.StrKey

/-!
What the checksum of a key sees. One letter or two neighbours are not exchanged for
others in any key (`typos_rejected`).
-/
namespace StellarAlerts.StrKeyTypos
open CyclicCodes DigitGroups StrKey

/-- The bits of a digit, the highest first. -/
def bitsOf : Nat → Nat → List Bool
  | 0, _ => []
  | n + 1, d => bitsOf n (d / 2) ++ [d.testBit 0]

@[simp] theorem bitsOf_length (n d : Nat) : (bitsOf n d).length = n := by
  induction n generalizing d with
  | zero => rfl
  | succ n ih => rw [bitsOf,List.length_append,ih,List.length_singleton]

theorem bitsOf_value {n d : Nat} (small : d < 2 ^ n) : value 2 ((bitsOf n d).map Bool.toNat) = d := by
  induction n generalizing d with
  | zero =>
    obtain rfl : d = 0 := by omega
    rfl
  | succ n ih =>
    have half : d / 2 < 2 ^ n := by omega
    have lowest : (d.testBit 0).toNat = d % 2 := by
      rw [Nat.testBit_zero]
      rcases Nat.mod_two_eq_zero_or_one d with even | odd <;> simp [*]
    rw [bitsOf,List.map_append,List.map_singleton,value_concat,ih half,lowest]
    omega

theorem flat_length (n : Nat) (digits : List Nat) : (digits.flatMap (bitsOf n)).length = n * digits.length := by
  induction digits with
  | nil => rfl
  | cons d rest ih => rw [List.flatMap_cons,List.length_append,bitsOf_length,ih,List.length_cons,Nat.mul_succ,Nat.add_comm]

theorem flat_value {n : Nat} {digits : List Nat} (small : ∀ d ∈ digits, d < 2 ^ n) :
    value 2 ((digits.flatMap (bitsOf n)).map Bool.toNat) = value (2 ^ n) digits := by
  induction digits with
  | nil => rfl
  | cons d rest ih =>
    rw [List.flatMap_cons,List.map_append,value_append,bitsOf_value (small d (by simp)),
      ih fun e listed => small e (by simp [listed]),List.length_map,flat_length,Nat.pow_mul,value_cons]

theorem bit_small (bits : List Bool) : ∀ d ∈ bits.map Bool.toNat, d < 2 := by
  intro d listed
  obtain ⟨bit,_,rfl⟩ := List.mem_map.mp listed
  exact Bool.toNat_lt bit

theorem bits_inj {a b : List Bool} (length : a.length = b.length)
    (same : value 2 (a.map Bool.toNat) = value 2 (b.map Bool.toNat)) : a = b := by
  have equal := value_inj (bit_small a) (bit_small b) (by simpa using length) same
  exact List.map_injective_iff.mpr (fun x y same => by cases x <;> cases y <;> first | rfl | cases same) equal

theorem zeros_value (n : Nat) : value 2 ((List.replicate n false).map Bool.toNat) = 0 := by
  induction n with
  | zero => rfl
  | succ n ih => rw [List.replicate_succ',List.map_append,List.map_singleton,value_concat,ih]; rfl

variable {fill : Nat}

theorem padded_bits {digits bytes : List Nat} (padded : Padded 5 8 digits bytes fill) (smallDigits : ∀ d ∈ digits, d < 2 ^ 5)
    (smallBytes : ∀ d ∈ bytes, d < 2 ^ 8) :
    digits.flatMap (bitsOf 5) = bytes.flatMap (bitsOf 8) ++ List.replicate fill false := by
  apply bits_inj
  · rw [flat_length,List.length_append,flat_length,List.length_replicate]
    exact padded.counted
  · rw [flat_value smallDigits,padded.same,List.map_append,value_append,flat_value smallBytes,zeros_value,
      List.length_map,List.length_replicate,Nat.add_zero]

def generator : BitVec 16 := 0x1021#16

theorem crcBit_eq (crc : BitVec 16) : crcBit crc = advance generator crc := by
  have leaves : (crc &&& 0x8000#16 ≠ 0#16) ↔ crc.msb = true := by
    rw [show 0x8000#16 = BitVec.twoPow 16 15 from rfl,BitVec.and_twoPow,BitVec.msb_eq_getLsbD_last]
    cases crc.getLsbD 15 <;> decide
  unfold crcBit advance
  by_cases high : crc.msb = true
  · rw [if_pos (leaves.mpr high),if_pos high]
    rfl
  · rw [if_neg (fun some_ => high (leaves.mp some_)),if_neg high]

theorem byte_alone : ∀ d < 256,
    (advance generator)^[8] (BitVec.ofNat 16 (d <<< 8)) = remainder generator 0#16 (bitsOf 8 d) := by decide +kernel

theorem crcByte_bits (crc : BitVec 16) (byte : UInt8) : crcByte crc byte = remainder generator crc (bitsOf 8 byte.toNat) := by
  have apart := remainder_xor generator (by simp : (List.replicate 8 false).length = (bitsOf 8 byte.toNat).length)
    (r := crc) (s := 0#16)
  have bits := differ_zeros (bitsOf 8 byte.toNat)
  rw [bitsOf_length] at bits
  rw [bits,BitVec.xor_zero,remainder_zeros] at apart
  rw [apart,← byte_alone byte.toNat byte.toNat_lt,← advance_iterate_xor,crcByte,funext crcBit_eq]

theorem crc16Xmodem_bits (bytes : List UInt8) :
    bytes.foldl crcByte 0#16 = remainder generator 0#16 ((bytes.map UInt8.toNat).flatMap (bitsOf 8)) := by
  generalize 0#16 = crc
  induction bytes generalizing crc with
  | nil => rfl
  | cons byte rest ih => rw [List.foldl_cons,crcByte_bits,ih,List.map_cons,List.flatMap_cons,remainder_append]

/-- The bits of a checksum as they stand behind the body, those of its low byte first. -/
def checksumBits (r : BitVec 16) : List Bool := [7,6,5,4,3,2,1,0,15,14,13,12,11,10,9,8].map r.getLsbD

theorem bitsOf_eq (n d : Nat) : bitsOf n d = (List.range n).reverse.map d.testBit := by
  induction n generalizing d with
  | zero => rfl
  | succ n ih =>
    rw [bitsOf,ih,List.range_succ_eq_map,List.reverse_cons,List.map_append,← List.map_reverse,List.map_map]
    congr 1
    refine List.map_congr_left fun i _ => ?_
    exact (Nat.testBit_succ d i).symm

theorem checksumBytes_bits (body : List UInt8) :
    ((checksumBytes body).map UInt8.toNat).flatMap (bitsOf 8) = checksumBits (body.foldl crcByte 0#16) := by
  have low : (crc16Xmodem body &&& 0xff) % 256 = crc16Xmodem body % 256 := by
    rw [show 0xff = 2 ^ 8 - 1 from rfl,Nat.and_two_pow_sub_one_eq_mod]
    exact Nat.mod_mod ..
  have high : ((crc16Xmodem body >>> 8) &&& 0xff) % 256 = (crc16Xmodem body >>> 8) % 256 := by
    rw [show 0xff = 2 ^ 8 - 1 from rfl,Nat.and_two_pow_sub_one_eq_mod]
    exact Nat.mod_mod ..
  have bits (d : Nat) : bitsOf 8 (d % 256) = [7,6,5,4,3,2,1,0].map d.testBit := by
    rw [bitsOf_eq]
    refine List.map_congr_left fun i listed => ?_
    have below : i < 8 := by simpa using listed
    rw [show 256 = 2 ^ 8 from rfl,Nat.testBit_mod_two_pow,decide_eq_true below,Bool.true_and]
  simp only [checksumBytes,List.map_cons,List.map_nil,List.flatMap_cons,List.flatMap_nil,UInt8.toNat_ofNat',low,high,bits]
  simp [checksumBits,Nat.testBit_shiftRight,crc16Xmodem,BitVec.getLsbD]

def codeWord (fill : Nat) (body : List Bool) : List Bool :=
  body ++ checksumBits (remainder generator 0#16 body) ++ List.replicate fill false
@[simp] theorem checksumBits_length (r : BitVec 16) : (checksumBits r).length = 16 := rfl
theorem checksumBits_zero : checksumBits 0#16 = List.replicate 16 false := by decide
theorem checksumBits_xor (r s : BitVec 16) : checksumBits (r ^^^ s) = differ (checksumBits r) (checksumBits s) := by
  simp [checksumBits,differ]

theorem checksumBits_inj {r s : BitVec 16} (same : checksumBits r = checksumBits s) : r = s := by
  have every : ∀ i < 16, i ∈ [7,6,5,4,3,2,1,0,15,14,13,12,11,10,9,8] := by decide
  exact BitVec.eq_of_getLsbD_eq fun i inside => List.map_inj_left.mp same i (every i inside)

theorem codeWord_differ (fill : Nat) {a b : List Bool} (same : a.length = b.length) :
    differ (codeWord fill a) (codeWord fill b) = codeWord fill (differ a b) := by
  have zero := remainder_xor generator (r := 0#16) (s := 0#16) same
  rw [BitVec.xor_zero] at zero
  rw [codeWord,codeWord,codeWord,differ_append (by simp [same]),differ_append same,differ_self,zero,checksumBits_xor,
    List.length_replicate]

theorem short_seen : ∀ k < 10, ∀ e < 2 ^ k,
    (∀ bit ∈ (checksumBits (remainder generator 0#16 (bitsOf k e))).drop (10 - k), bit = false) → e = 0 := by decide +kernel

theorem tail_seen {bits : List Bool} (few : bits.length < 10)
    (clear : ∀ bit ∈ (checksumBits (remainder generator 0#16 bits)).drop (10 - bits.length), bit = false) :
    bits = List.replicate bits.length false := by
  have small := value_lt (bit_small bits)
  rw [List.length_map] at small
  have bitsAre : bitsOf bits.length (value 2 (bits.map Bool.toNat)) = bits :=
    bits_inj (bitsOf_length ..) (bitsOf_value small)
  have zero := short_seen bits.length few _ small (by rwa [bitsAre])
  apply bits_inj (by simp)
  rw [zero,zeros_value]

theorem checksum_clear {r : BitVec 16} (clear : ∀ bit ∈ checksumBits r, bit = false) : r = 0#16 := by
  apply checksumBits_inj
  rw [checksumBits_zero]
  exact all_false clear

theorem burst_codeWord {before after : Nat} {body burst : List Bool} (few : burst.length ≤ 10)
    (same : codeWord fill body = List.replicate before false ++ burst ++ List.replicate after false) :
    ∀ bit ∈ burst, bit = false := by
  have odd : generator.getLsbD 0 = true := by decide
  rw [codeWord,List.append_assoc,List.append_assoc] at same
  rcases List.append_eq_append_iff.mp same with ⟨early,zeros,rest⟩ | ⟨inner,bodyIs,rest⟩
  · -- The body is before the burst, so the checksum is zero.
    have bodyZero : ∀ bit ∈ body, bit = false := fun bit listed =>
      List.eq_of_mem_replicate (zeros ▸ List.mem_append_left early listed)
    rw [all_false bodyZero,remainder_start,checksumBits_zero,List.replicate_append_replicate] at rest
    intro bit listed
    exact List.eq_of_mem_replicate (rest ▸ List.mem_append_right early (List.mem_append_left _ listed))
  · have sumIs : remainder generator 0#16 body = remainder generator 0#16 inner := by
      rw [bodyIs,remainder_append,remainder_start]
    rw [sumIs] at rest
    rcases List.append_eq_append_iff.mp rest with ⟨late,innerIs,zeros⟩ | ⟨outer,burstIs,zeros⟩
    · -- The burst is in the body.
      have sumZero := checksum_clear fun bit listed =>
        List.eq_of_mem_replicate (zeros ▸ List.mem_append_right late (List.mem_append_left _ listed))
      have lateZero : ∀ bit ∈ late, bit = false := fun bit listed =>
        List.eq_of_mem_replicate (zeros ▸ List.mem_append_left _ listed)
      rw [innerIs,all_false lateZero] at sumZero
      exact burst_detected odd (by decide : 0 < 16) (by omega) (List.nil_append _ ▸ sumZero : remainder generator 0#16 (List.replicate 0 false ++ burst ++ List.replicate late.length false) = 0#16)
    · -- The burst goes from the body into the checksum.
      have counted : inner.length + outer.length ≤ 10 := by simpa [burstIs] using few
      have innerZero : inner = List.replicate inner.length false := by
        by_cases none_ : outer = []
        · rw [none_,List.nil_append] at zeros
          have sumZero := checksum_clear fun bit listed => List.eq_of_mem_replicate (zeros ▸ List.mem_append_left _ listed)
          exact all_false (short_burst odd (by omega : inner.length ≤ 16) (Nat.le_refl 16) fun i _ => by
            rw [sumZero,BitVec.getLsbD_zero])
        · have some_ := List.length_pos_of_ne_nil none_
          refine tail_seen (by omega) fun bit listed => ?_
          have reach : bit ∈ (outer ++ List.replicate after false).drop (10 - inner.length) := by
            rw [← zeros,List.drop_append]
            exact List.mem_append_left _ listed
          rw [List.drop_append,List.drop_eq_nil_of_le (by omega : outer.length ≤ 10 - inner.length),List.nil_append] at reach
          exact List.eq_of_mem_replicate (List.mem_of_mem_drop reach)
      rw [innerZero,remainder_start,checksumBits_zero,List.replicate_append_replicate] at zeros
      intro bit listed
      rw [burstIs,innerZero] at listed
      rcases List.mem_append.mp listed with first | later
      · exact List.eq_of_mem_replicate first
      · exact List.eq_of_mem_replicate (zeros ▸ List.mem_append_left _ later)

theorem key_codeWord {kind : StellarStrKeyKind} {text : String} (valid : ∃ bytes, decodeStrKey (.string text) kind = .ok bytes) :
    ∃ (digits : List Nat) (fill : Nat) (body : List Bool), text = String.ofList (digits.map letter) ∧ (∀ d ∈ digits, d < 32) ∧
      digits.flatMap (bitsOf 5) = codeWord fill body ∧ fill < 5 ∧ 8 ∣ body.length := by
  obtain ⟨bytes,decodes⟩ := valid
  obtain ⟨payload,_,textIs,_⟩ := (decodeStrKey_ok_iff text kind bytes).mp decodes
  obtain ⟨digits,fill,written,small,padded,few⟩ := base32Encode_padded (keyBytes kind payload)
  refine ⟨digits,fill,((STRKEY_VERSION kind :: payload).map UInt8.toNat).flatMap (bitsOf 8),textIs.trans written,small,?_,few,?_⟩
  · have bytesSmall : ∀ d ∈ (keyBytes kind payload).map UInt8.toNat, d < 2 ^ 8 := by
      intro d listed
      obtain ⟨byte,_,rfl⟩ := List.mem_map.mp listed
      exact byte.toNat_lt
    rw [padded_bits padded small bytesSmall,keyBytes,List.map_append,List.flatMap_append,checksumBytes_bits,
      crc16Xmodem_bits,codeWord]
  · rw [flat_length]
    exact Nat.dvd_mul_right ..

theorem letter_inj {a b : Nat} (smallA : a < 32) (smallB : b < 32) (same : letter a = letter b) : a = b := by
  have found := idxOf_letter a smallA
  rw [same,idxOf_letter b smallB] at found
  exact (Option.some.inj found).symm

theorem letters_inj {a b : List Nat} (smallA : ∀ d ∈ a, d < 32) (smallB : ∀ d ∈ b, d < 32)
    (same : a.map letter = b.map letter) : a = b := by
  induction a generalizing b with
  | nil => exact (List.map_eq_nil_iff.mp same.symm).symm
  | cons d rest ih =>
    cases b with
    | nil => cases same
    | cons e others =>
      obtain ⟨first,later⟩ := List.cons.inj same
      have firsts := letter_inj (smallA d (by simp)) (smallB e (by simp)) first
      rw [firsts,ih (fun f listed => smallA f (by simp [listed])) (fun f listed => smallB f (by simp [listed])) later]

theorem neighbours_same {first x y last : List Nat} {fill' : Nat} {body body' : List Bool} (length : y.length = x.length)
    (few : x.length ≤ 2) (small : ∀ d ∈ x, d < 32) (small' : ∀ d ∈ y, d < 32)
    (word : (first ++ x ++ last).flatMap (bitsOf 5) = codeWord fill body)
    (word' : (first ++ y ++ last).flatMap (bitsOf 5) = codeWord fill' body') (fills : fill < 5) (fills' : fill' < 5)
    (bytes : 8 ∣ body.length) (bytes' : 8 ∣ body'.length) : x = y := by
  have counted := congrArg List.length word
  have counted' := congrArg List.length word'
  simp only [flat_length,codeWord,List.length_append,checksumBits_length,List.length_replicate,length] at counted counted'
  obtain rfl : fill' = fill := by omega
  have lengths : body.length = body'.length := by omega
  have bits : (x.flatMap (bitsOf 5)).length = (y.flatMap (bitsOf 5)).length := by rw [flat_length,flat_length,length]
  have sum := codeWord_differ fill' lengths
  rw [← word,← word',List.flatMap_append,List.flatMap_append,List.flatMap_append,List.flatMap_append,
    differ_append (by simp only [List.length_append,bits]),differ_append rfl,differ_self,differ_self] at sum
  have none_ := burst_codeWord (by rw [differ_length bits,flat_length]; omega) sum.symm
  have same := congrArg (fun word => value 2 (word.map Bool.toNat)) (eq_of_differ bits none_)
  simp only [flat_value (n := 5) small,flat_value (n := 5) small'] at same
  exact value_inj small small' length.symm same

/-- Where one letter of a key or two neighbours are replaced by others, the text is no key of any kind. -/
theorem typos_rejected (kind kind' : StellarStrKeyKind) (before typed mistyped after : List Char)
    (valid : validateStrKey (.string (String.ofList (before ++ typed ++ after))) kind =
      .valid kind (String.ofList (before ++ typed ++ after)))
    (few : typed.length ≤ 2) (length : mistyped.length = typed.length) (other : mistyped ≠ typed) :
    ∃ reason found, validateStrKey (.string (String.ofList (before ++ mistyped ++ after))) kind' =
      .invalid kind' reason found := by
  cases decodes : decodeStrKey (.string (String.ofList (before ++ mistyped ++ after))) kind' with
  | error found => exact ⟨found.1,found.2,by rw [validateStrKey,decodes]⟩
  | ok bytes =>
    obtain ⟨digits,fill,body,textIs,small,word,fills,eights⟩ := key_codeWord ((validateStrKey_valid_iff _ kind).mp valid)
    obtain ⟨digits',fill',body',textIs',small',word',fills',eights'⟩ := key_codeWord ⟨bytes,decodes⟩
    have letters := (String.ofList_injective textIs).symm
    have letters' := (String.ofList_injective textIs').symm
    obtain ⟨digits,last,rfl,front,rfl⟩ := List.map_eq_append_iff.mp letters
    obtain ⟨first,x,rfl,rfl,rfl⟩ := List.map_eq_append_iff.mp front
    obtain ⟨digits',last',rfl,front',lastSame⟩ := List.map_eq_append_iff.mp letters'
    obtain ⟨first',y,rfl,firstSame,rfl⟩ := List.map_eq_append_iff.mp front'
    obtain rfl := letters_inj (fun d listed => small' d (by simp [listed])) (fun d listed => small d (by simp [listed])) lastSame
    obtain rfl := letters_inj (fun d listed => small' d (by simp [listed])) (fun d listed => small d (by simp [listed])) firstSame
    have same := neighbours_same (by simpa using length) (by simpa using few) (fun d listed => small d (by simp [listed]))
      (fun d listed => small' d (by simp [listed])) word word' fills fills' eights eights'
    exact absurd (congrArg (List.map letter) same).symm other

theorem typos_rejected_transposed : ∃ reason found, validateStrKey
    (.string (String.ofList ("GAAAAAAAAAAAAAAAAAAAAAAAAAAAAAAAAAAAAAAAAAAAAAAAAAAAAW".toList ++ ['F','H'] ++ [])))
    .ed25519PublicKey = .invalid .ed25519PublicKey reason found :=
  typos_rejected .ed25519PublicKey .ed25519PublicKey "GAAAAAAAAAAAAAAAAAAAAAAAAAAAAAAAAAAAAAAAAAAAAAAAAAAAAW".toList
    ['H','F'] ['F','H'] [] (by decide +kernel) (by decide) rfl (by decide)

end StellarAlerts.StrKeyTypos
