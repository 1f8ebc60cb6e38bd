import StellarAlerts.IntegerText

/-!
Bytes written as hexadecimal text, two lower-case digits a byte, and read back:
reading takes digits of either case and stops before the first pair that is not
two digits. What was written is read back (`fromHex_toHex`), so different bytes
have different texts (`toHex_injective`).
-/
namespace StellarAlerts.HexText
open IntegerText (digitValue)

def hexDigit (n : Nat) : Char := if n < 10 then Char.ofNat ('0'.toNat + n) else Char.ofNat ('a'.toNat + n - 10)

/-- `Buffer.toString('hex')`. -/
def toHex (bytes : List UInt8) : String :=
  String.ofList (bytes.flatMap fun b => [hexDigit (b.toNat / 16),hexDigit (b.toNat % 16)])

def fromHexDigits : List Char → List UInt8
  | high :: low :: rest =>
    match digitValue high, digitValue low with
    | some h, some l => UInt8.ofNat (16 * h + l) :: fromHexDigits rest
    | _, _ => []
  | _ => []

/-- `Buffer.from(text,'hex')`. -/
def fromHex (text : String) : List UInt8 := fromHexDigits text.toList

/-- The test `/^[0-9a-f]{n}$/i`. -/
def isHex (n : Nat) (text : String) : Bool :=
  text.toList.length == n && text.toList.all fun c => (digitValue c).isSome

/-- `toLowerCase` on text of the Latin alphabet. -/
def toLowerCase (text : String) : String := String.ofList (text.toList.map Char.toLower)

theorem hexDigit_value : ∀ n < 16, digitValue (hexDigit n) = some n := by decide
theorem hexDigit_lower : ∀ n < 16, (hexDigit n).toLower = hexDigit n := by decide

theorem fromHexDigits_written (bytes : List UInt8) :
    fromHexDigits (bytes.flatMap fun b => [hexDigit (b.toNat / 16),hexDigit (b.toNat % 16)]) = bytes := by
  induction bytes with
  | nil => rfl
  | cons b rest ih =>
    have small : b.toNat < 256 := b.toNat_lt
    have high := hexDigit_value (b.toNat / 16) (by omega)
    have low := hexDigit_value (b.toNat % 16) (by omega)
    have same : 16 * (b.toNat / 16) + b.toNat % 16 = b.toNat := by omega
    simp [fromHexDigits,high,low,ih,same]

@[simp] theorem fromHex_toHex (bytes : List UInt8) : fromHex (toHex bytes) = bytes := by
  simp [fromHex,toHex,fromHexDigits_written]
theorem toHex_injective {a b : List UInt8} (same : toHex a = toHex b) : a = b := by
  rw [← fromHex_toHex a,same,fromHex_toHex]

@[simp] theorem toHex_length (bytes : List UInt8) : (toHex bytes).toList.length = 2 * bytes.length := by
  induction bytes with
  | nil => rfl
  | cons b rest ih =>
    simp only [toHex,String.toList_ofList,List.flatMap_cons,List.length_append,List.length_cons] at ih ⊢
    simp only [ih,List.length_nil]
    omega

theorem toHex_digit {bytes : List UInt8} {c : Char} (written : c ∈ (toHex bytes).toList) :
    ∃ n < 16, c = hexDigit n := by
  simp only [toHex,String.toList_ofList,List.mem_flatMap,List.mem_cons,List.not_mem_nil,or_false] at written
  obtain ⟨b,_,rfl | rfl⟩ := written
  · have small : b.toNat < 256 := b.toNat_lt
    exact ⟨b.toNat / 16,by omega,rfl⟩
  · exact ⟨b.toNat % 16,by omega,rfl⟩

theorem isHex_toHex {n : Nat} {bytes : List UInt8} (length : n = 2 * bytes.length) : isHex n (toHex bytes) = true := by
  simp only [isHex,toHex_length,length,beq_self_eq_true,Bool.true_and,List.all_eq_true]
  intro c written
  obtain ⟨n,small,rfl⟩ := toHex_digit written
  simp [hexDigit_value n small]

@[simp] theorem toLowerCase_toHex (bytes : List UInt8) : toLowerCase (toHex bytes) = toHex bytes := by
  have same : (toHex bytes).toList.map Char.toLower = (toHex bytes).toList.map id := by
    apply List.map_congr_left
    intro c written
    obtain ⟨n,small,rfl⟩ := toHex_digit written
    exact hexDigit_lower n small
  rw [toLowerCase,same,List.map_id,String.ofList_toList]

theorem fromHex_length {n : Nat} {text : String} (hex : isHex (2 * n) text = true) : (fromHex text).length = n := by
  simp only [isHex,Bool.and_eq_true,beq_iff_eq,List.all_eq_true] at hex
  obtain ⟨length,digits⟩ := hex
  unfold fromHex
  generalize text.toList = word at length digits
  induction n generalizing word with
  | zero => rw [List.length_eq_zero_iff.mp length]; rfl
  | succ n ih =>
    match word, length with
    | high :: low :: rest, length =>
      obtain ⟨h,highIs⟩ := Option.isSome_iff_exists.mp (digits high (by simp))
      obtain ⟨l,lowIs⟩ := Option.isSome_iff_exists.mp (digits low (by simp))
      have shorter : rest.length = 2 * n := by simp only [List.length_cons] at length; omega
      simp [fromHexDigits,highIs,lowIs,ih rest shorter (fun c listed => digits c (by simp [listed]))]

end StellarAlerts.HexText
