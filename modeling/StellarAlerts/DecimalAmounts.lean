import Mathlib.Tactic.Ring
import StellarAlerts.IntegerText

/-!
Amounts as decimal texts with at most seven places, and as whole stroops. A text is read
exactly or not at all. Assets are told apart by a text in which the letters of the code
are capitals.
-/
namespace StellarAlerts.DecimalAmounts
open IntegerText

def STROOP_PRECISION : Nat := 7
def STROOPS_PER_UNIT : Nat := 10 ^ STROOP_PRECISION
def RATIO_SCALE : Nat := 1000000

/-- `/^\d+(?:\.\d+)?$/`, with the digits before and behind the point. -/
def decimalParts (word : List Char) : Option (List Char × List Char) :=
  let whole := word.takeWhile Char.isDigit
  if whole = [] then none
  else
    match word.dropWhile Char.isDigit with
    | [] => some (whole,[])
    | '.' :: fraction => if fraction ≠ [] ∧ fraction.all Char.isDigit then some (whole,fraction) else none
    | _ => none

/-- The stroops of an amount; none where a RangeError is thrown. -/
def parseAmountToStroops (amount : String) : Option Nat :=
  match decimalParts (trim amount.toList) with
  | none => none
  | some (wholePart,fractionPart) =>
    if STROOP_PRECISION < fractionPart.length then none
    else some (decimal (String.ofList (wholePart ++ fractionPart.rightpad STROOP_PRECISION '0')))

def tryParseAmountToStroops : Option String → Option Nat
  | none => none
  | some amount => if amount = "" then none else parseAmountToStroops amount

/-- `n.toString().padStart(width, '0')`. -/
def padded (width n : Nat) : List Char := (toString n).toList.leftpad width '0'

def formatStroops (stroops : Int) : String :=
  let abs := stroops.natAbs
  (if stroops < 0 then "-" else "") ++ toString (abs / STROOPS_PER_UNIT) ++ "." ++
    String.ofList (padded STROOP_PRECISION (abs % STROOPS_PER_UNIT))

def formatRatioAsPercent (ratioScaled : Int) : String :=
  let hundredths := ratioScaled.natAbs * 10000 / RATIO_SCALE
  (if ratioScaled < 0 then "-" else "") ++ toString (hundredths / 100) ++ "." ++ String.ofList (padded 2 (hundredths % 100))

inductive AssetType where
  | native
  | creditAlphanumeric
  | liquidityPool
deriving DecidableEq, Repr

structure AssetRef where
  type : AssetType
  code : Option String
  issuer : Option String
  poolId : Option String
deriving DecidableEq, Repr

def canonicalAssetKey (toUpperCase : String → String) (asset : AssetRef) : String :=
  match asset.type with
  | .native => "native"
  | .creditAlphanumeric => "credit_alphanumeric:" ++ toUpperCase (asset.code.getD "") ++ ":" ++ asset.issuer.getD ""
  | .liquidityPool => "liquidity_pool:" ++ (asset.poolId.or asset.code).getD ""

theorem decimal_fold (word : List Char) (value : Nat) :
    word.foldl (fun value c => 10 * value + (c.toNat - '0'.toNat)) value =
      value * 10 ^ word.length + decimal (String.ofList word) := by
  rw [decimal,String.toList_ofList]
  induction word generalizing value with
  | nil => simp
  | cons c rest ih =>
    rw [List.foldl_cons,List.foldl_cons,ih,ih (10 * 0 + _),List.length_cons,Nat.pow_succ]
    ring

theorem decimal_append (a b : List Char) :
    decimal (String.ofList (a ++ b)) = decimal (String.ofList a) * 10 ^ b.length + decimal (String.ofList b) := by
  rw [← decimal_fold b,decimal,decimal,String.toList_ofList,String.toList_ofList,List.foldl_append]

theorem decimal_zeros (count : Nat) : decimal (String.ofList (List.replicate count '0')) = 0 := by
  induction count with
  | zero => rfl
  | succ count ih =>
    have split : List.replicate (count + 1) '0' = List.replicate count '0' ++ ['0'] := List.replicate_succ'
    rw [split,decimal_append,ih]
    rfl

theorem decimal_text (n : Nat) : decimal (String.ofList (toString n).toList) = n := by
  rw [String.ofList_toList]
  exact (decimal_toString n).2

theorem text_digits (n : Nat) : ∀ c ∈ (toString n).toList, c.isDigit = true := (isDigits_iff.mp (decimal_toString n).1).2
theorem padded_eq (width n : Nat) :
    padded width n = List.replicate (width - (toString n).toList.length) '0' ++ (toString n).toList := rfl

theorem padded_digits (width n : Nat) : ∀ c ∈ padded width n, c.isDigit = true := by
  intro c member
  rw [padded_eq,List.mem_append] at member
  rcases member with zero | digit
  · obtain rfl := (List.mem_replicate.mp zero).2
    rfl
  · exact text_digits n c digit

theorem decimal_padded (width n : Nat) : decimal (String.ofList (padded width n)) = n := by
  rw [padded_eq,decimal_append,decimal_zeros,Nat.zero_mul,Nat.zero_add,decimal_text]

theorem padded_length {width n : Nat} (small : n < 10 ^ width) (some_ : 0 < width) : (padded width n).length = width := by
  have fits : (toString n).toList.length ≤ width := by
    rw [Nat.toString_eq_repr,Nat.toList_repr]
    exact (Nat.length_toDigits_le_iff (by decide) some_).mpr small
  rw [padded_eq,List.length_append,List.length_replicate]
  omega

theorem decimalParts_point {whole fraction : List Char} (someWhole : whole ≠ []) (someFraction : fraction ≠ [])
    (wholeDigits : ∀ c ∈ whole, c.isDigit = true) (fractionDigits : ∀ c ∈ fraction, c.isDigit = true) :
    decimalParts (whole ++ '.' :: fraction) = some (whole,fraction) := by
  have taken : (whole ++ '.' :: fraction).takeWhile Char.isDigit = whole := by
    rw [List.takeWhile_append_of_pos wholeDigits]
    simp
  have left : (whole ++ '.' :: fraction).dropWhile Char.isDigit = '.' :: fraction := by
    rw [List.dropWhile_append_of_pos wholeDigits]
    simp
  simp only [decimalParts,taken,left,if_neg someWhole]
  rw [if_pos ⟨someFraction,List.all_eq_true.mpr fractionDigits⟩]

example : parseAmountToStroops " 12.5 " = some 125000000 := by decide

end StellarAlerts.DecimalAmounts
