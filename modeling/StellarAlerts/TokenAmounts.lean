import Mathlib.Data.List.DropRight
import Mathlib.Data.Rat.Cast.Order
import Mathlib.Tactic.FieldSimp
import StellarAlerts.DecimalAmounts

/-!
Token amounts as decimal texts. What is written is the exact amount, in the one form
that has neither superfluous zeros nor a sign at zero (`format_exact`).
-/
namespace StellarAlerts.TokenAmounts
open IntegerText DecimalAmounts

/-- A bigint, or what `String` makes of a text or of a number. -/
inductive RawAmount where
  | bigint (n : Int)
  | text (s : String)
deriving DecidableEq, Repr

/-- Where `BigInt` throws a SyntaxError the amount is zero. -/
def RawAmount.raw : RawAmount → Int
  | .bigint n => n
  | .text s => (BigInt (String.ofList (trim s.toList))).getD 0

/-- `n.toString().padStart(places, '0').replace(/0+$/, '')`. -/
def fractionOf (places n : Nat) : List Char := (padded places n).rdropWhile fun c => c = '0'

def formatTokenAmount (rawAmount : RawAmount) (decimals : Int) : String :=
  let raw := rawAmount.raw
  let sign := if raw < 0 then "-" else ""
  let abs := raw.natAbs
  let divisor := 10 ^ (max 0 decimals).toNat
  let whole := abs / divisor
  let fraction := fractionOf decimals.toNat (abs % divisor)
  sign ++ toString whole ++ (if fraction = [] then "" else "." ++ String.ofList fraction)

def unsignedValue (word : List Char) : Option ℚ :=
  (decimalParts word).map fun parts =>
    decimal (String.ofList parts.1) + decimal (String.ofList parts.2) / 10 ^ parts.2.length

/-- The number that the text denotes. -/
def valueOf (text : String) : Option ℚ :=
  match text.toList with
  | '-' :: word => (unsignedValue word).map fun value => -value
  | word => unsignedValue word

/-- A text in parts: digits before the point without a leading zero beside another one, digits behind it
    that do not end in a zero and need no point if there are none, and a sign only of what is not zero. -/
structure Canonical (text : String) (negative : Bool) (whole fraction : List Char) : Prop where
  parts : text.toList = (if negative then ['-'] else []) ++ whole ++ (if fraction = [] then [] else '.' :: fraction)
  some_ : whole ≠ []
  wholeDigits : ∀ c ∈ whole, c.isDigit = true
  fractionDigits : ∀ c ∈ fraction, c.isDigit = true
  leading : whole.head? = some '0' → whole = ['0']
  trailing : fraction.getLast? ≠ some '0'
  signed : negative = true → ∃ c ∈ whole ++ fraction, c ≠ '0'

theorem decimal_lt {word : List Char} (digits : ∀ c ∈ word, c.isDigit = true) : decimal (String.ofList word) < 10 ^ word.length := by
  induction word using List.reverseRecOn with
  | nil => simp [decimal]
  | append_singleton word c ih =>
    have before := ih fun d listed => digits d (List.mem_append_left _ listed)
    have range := digit_range (digits c (by simp))
    have last : decimal (String.ofList [c]) = c.toNat - '0'.toNat := by simp [decimal]
    have zero : '0'.toNat = 48 := rfl
    rw [decimal_append,last,List.length_append,List.length_singleton,Nat.pow_one,Nat.pow_succ]
    omega

theorem text_ne_nil (n : Nat) : (toString n).toList ≠ [] := (isDigits_iff.mp (decimal_toString n).1).1

theorem text_leading {n : Nat} (leads : (toString n).toList.head? = some '0') : (toString n).toList = ['0'] := by
  obtain ⟨c,rest,digits⟩ := List.exists_cons_of_ne_nil (text_ne_nil n)
  rw [digits,List.head?_cons] at leads
  obtain rfl := Option.some.inj leads
  cases rest with
  | nil => exact digits
  | cons d rest =>
    have all := text_digits n
    rw [digits] at all
    have value : n = decimal (String.ofList (d :: rest)) := by
      have split : '0' :: d :: rest = ['0'] ++ d :: rest := rfl
      have zero : decimal (String.ofList ['0']) = 0 := by decide
      rw [← decimal_text n,digits,split,decimal_append,zero,Nat.zero_mul,Nat.zero_add]
    have small : n < 10 ^ (d :: rest).length := by
      rw [value]
      exact decimal_lt fun e listed => all e (List.mem_cons_of_mem _ listed)
    have fits : (toString n).toList.length ≤ (d :: rest).length := by
      rw [Nat.toString_eq_repr,Nat.toList_repr]
      exact (Nat.length_toDigits_le_iff (by decide) (by simp)).mpr small
    rw [digits] at fits
    simp at fits

section Fraction
variable (places n : Nat)

theorem fraction_split : ∃ zeros, padded places n = fractionOf places n ++ List.replicate zeros '0' := by
  refine ⟨((padded places n).rtakeWhile fun c => c = '0').length,?_⟩
  have only : (padded places n).rtakeWhile (fun c => c = '0') =
      List.replicate ((padded places n).rtakeWhile fun c => c = '0').length '0' :=
    List.eq_replicate_of_mem fun c listed => by simpa using List.mem_rtakeWhile_imp listed
  rw [← only,fractionOf,List.rdropWhile_append_rtakeWhile]

theorem fraction_digits : ∀ c ∈ fractionOf places n, c.isDigit = true := fun c listed =>
  padded_digits places n c ((List.rdropWhile_prefix _ _).subset listed)

theorem fraction_trailing : (fractionOf places n).getLast? ≠ some '0' := by
  intro ends
  have some_ : fractionOf places n ≠ [] := by
    intro empty
    rw [empty] at ends
    cases ends
  rw [List.getLast?_eq_some_getLast some_] at ends
  exact List.rdropWhile_last_not _ _ some_ (decide_eq_true (Option.some.inj ends))

variable {places n}

theorem fraction_value (small : n < 10 ^ places) :
    (decimal (String.ofList (fractionOf places n)) : ℚ) / 10 ^ (fractionOf places n).length = n / 10 ^ places := by
  obtain ⟨zeros,split⟩ := fraction_split places n
  have value : n = decimal (String.ofList (fractionOf places n)) * 10 ^ zeros := by
    conv_lhs => rw [← decimal_padded places n,split,decimal_append,decimal_zeros,List.length_replicate,Nat.add_zero]
  by_cases none_ : places = 0
  · subst none_
    have zero : n = 0 := by simpa using small
    subst zero
    have empty : fractionOf 0 0 = [] := by decide
    simp [empty,decimal]
  · have length := padded_length small (Nat.pos_of_ne_zero none_)
    rw [split,List.length_append,List.length_replicate] at length
    generalize fractionOf places n = fraction at *
    rw [← length,pow_add,value]
    push_cast
    field_simp

end Fraction

section Text
variable (raw : Int) (decimals : Nat)

/-- The digits before the point. -/
def wholeDigits : List Char := (toString (raw.natAbs / 10 ^ decimals)).toList

def fractionDigits : List Char := fractionOf decimals (raw.natAbs % 10 ^ decimals)

theorem format_toList : (formatTokenAmount (.bigint raw) decimals).toList = (if decide (raw < 0) then ['-'] else []) ++
    wholeDigits raw decimals ++ (if fractionDigits raw decimals = [] then [] else '.' :: fractionDigits raw decimals) := by
  have places : (max 0 (decimals : Int)).toNat = decimals := by omega
  have same : (decimals : Int).toNat = decimals := Int.toNat_natCast decimals
  have sign : (if raw < 0 then "-" else "").toList = if raw < 0 then ['-'] else [] := by split <;> simp
  have fraction : (if fractionDigits raw decimals = [] then "" else "." ++ String.ofList (fractionDigits raw decimals)).toList =
      if fractionDigits raw decimals = [] then [] else '.' :: fractionDigits raw decimals := by
    split <;> simp
  simp only [decide_eq_true_eq]
  rw [← sign,← fraction,wholeDigits,← String.toList_append,← String.toList_append,formatTokenAmount,places,same]
  rfl

theorem parts_value : (decimal (String.ofList (wholeDigits raw decimals)) : ℚ) +
    decimal (String.ofList (fractionDigits raw decimals)) / 10 ^ (fractionDigits raw decimals).length = raw.natAbs / 10 ^ decimals := by
  have rest : raw.natAbs % 10 ^ decimals < 10 ^ decimals := Nat.mod_lt _ (Nat.pow_pos (by decide))
  have whole : decimal (String.ofList (wholeDigits raw decimals)) = raw.natAbs / 10 ^ decimals := by
    rw [wholeDigits,decimal_text]
  have split : (raw.natAbs : ℚ) = (raw.natAbs / 10 ^ decimals : Nat) * 10 ^ decimals + (raw.natAbs % 10 ^ decimals : Nat) := by
    exact_mod_cast (Nat.div_add_mod' raw.natAbs (10 ^ decimals)).symm
  rw [fractionDigits,fraction_value rest,whole]
  conv_rhs => rw [split]
  field_simp

theorem unsigned_parts : unsignedValue (wholeDigits raw decimals ++
    (if fractionDigits raw decimals = [] then [] else '.' :: fractionDigits raw decimals)) = some (raw.natAbs / 10 ^ decimals : ℚ) := by
  have someWhole : wholeDigits raw decimals ≠ [] := text_ne_nil _
  rw [← parts_value]
  by_cases none_ : fractionDigits raw decimals = []
  · have all : decimalParts (wholeDigits raw decimals) = some (wholeDigits raw decimals,[]) := by
      have taken := List.takeWhile_eq_self_iff.mpr (text_digits (raw.natAbs / 10 ^ decimals))
      have left := List.dropWhile_eq_nil_iff.mpr (text_digits (raw.natAbs / 10 ^ decimals))
      simp only [decimalParts,wholeDigits] at someWhole ⊢
      simp only [taken,left,if_neg someWhole]
    simp [unsignedValue,none_,all]
  · rw [if_neg none_,unsignedValue,decimalParts_point someWhole none_ (text_digits _) (fraction_digits _ _)]
    rfl

theorem format_value : valueOf (formatTokenAmount (.bigint raw) decimals) = some (raw / 10 ^ decimals : ℚ) := by
  have unsigned := unsigned_parts raw decimals
  rw [valueOf,format_toList]
  by_cases negative : raw < 0
  · have abs : (raw : ℚ) = -(raw.natAbs : ℚ) := by
      rw [Nat.cast_natAbs,abs_of_neg negative,Int.cast_neg,neg_neg]
    simp only [negative,decide_true,if_true,List.singleton_append]
    have read : unsignedValue ((wholeDigits raw decimals).append
        (if fractionDigits raw decimals = [] then [] else '.' :: fractionDigits raw decimals)) = some (raw.natAbs / 10 ^ decimals : ℚ) := unsigned
    show (unsignedValue _).map _ = _
    rw [read,abs,neg_div]
    rfl
  · have abs : (raw : ℚ) = (raw.natAbs : ℚ) := by
      rw [Nat.cast_natAbs,abs_of_nonneg (not_lt.mp negative)]
    obtain ⟨c,rest,first⟩ := List.exists_cons_of_ne_nil (text_ne_nil (raw.natAbs / 10 ^ decimals))
    have digit : c ≠ '-' := by
      rintro rfl
      have is := text_digits (raw.natAbs / 10 ^ decimals) '-' (by rw [first]; simp)
      revert is
      decide
    simp only [negative,decide_false,Bool.false_eq_true,if_false,List.nil_append] at unsigned ⊢
    rw [wholeDigits,first] at unsigned ⊢
    rw [abs,← unsigned]
    split
    next word starts => exact absurd (List.cons.inj starts).1 digit
    next => rfl

theorem format_canonical : Canonical (formatTokenAmount (.bigint raw) decimals) (raw < 0) (wholeDigits raw decimals) (fractionDigits raw decimals) where
  parts := format_toList raw decimals
  some_ := text_ne_nil _
  wholeDigits := text_digits _
  fractionDigits := fraction_digits _ _
  leading := text_leading
  trailing := fraction_trailing _ _
  signed := by
    intro negative
    by_contra zeros
    push Not at zeros
    have none_ {word : List Char} (all : ∀ c ∈ word, c = '0') : decimal (String.ofList word) = 0 := by
      rw [List.eq_replicate_of_mem all,decimal_zeros]
    have value := parts_value raw decimals
    rw [none_ fun c listed => zeros c (List.mem_append_left _ listed),none_ fun c listed => zeros c (List.mem_append_right _ listed)] at value
    have positive : (0 : ℚ) < raw.natAbs / 10 ^ decimals := by
      have below : raw < 0 := of_decide_eq_true negative
      have some_ : (0 : ℚ) < raw.natAbs := by exact_mod_cast Int.natAbs_pos.mpr below.ne
      exact div_pos some_ (pow_pos (by norm_num) decimals)
    rw [← value] at positive
    simp at positive

/-- The text denotes the amount, in its one form, and so tells amounts apart. -/
theorem format_exact : valueOf (formatTokenAmount (.bigint raw) decimals) = some (raw / 10 ^ decimals : ℚ) ∧
    (∃ whole fraction, Canonical (formatTokenAmount (.bigint raw) decimals) (raw < 0) whole fraction) ∧
    ∀ other, formatTokenAmount (.bigint other) decimals = formatTokenAmount (.bigint raw) decimals → other = raw := by
  refine ⟨format_value raw decimals,⟨_,_,format_canonical raw decimals⟩,fun other same => ?_⟩
  have values := format_value other decimals
  rw [same,format_value raw decimals] at values
  have quotients := Option.some.inj values
  field_simp at quotients
  exact_mod_cast quotients.symm

end Text

end StellarAlerts.TokenAmounts
