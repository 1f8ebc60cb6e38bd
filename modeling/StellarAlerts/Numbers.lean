import Mathlib.Data.Rat.Floor

/-!
The numbers of JavaScript by their values: NaN, the infinities, or a rational. The two
zeros are one.
-/
namespace StellarAlerts.Numbers

inductive Number where
  | nan
  | infinite (negative : Bool)
  | finite (q : ℚ)
deriving DecidableEq

/-- `a < b`. -/
def Number.lt : Number → Number → Bool
  | .finite a, .finite b => a < b
  | .finite _, .infinite negative => !negative
  | .infinite negative, .finite _ => negative
  | .infinite negative, .infinite negative' => negative && !negative'
  | _, _ => false

/-- `a === b`; NaN is not itself. -/
def Number.same : Number → Number → Bool
  | .finite a, .finite b => a = b
  | .infinite negative, .infinite negative' => negative = negative'
  | _, _ => false

/-- `a <= b`. -/
def Number.le (a b : Number) : Bool := a.lt b || a.same b

/-- `Number.isInteger(x) && x > 0`, with its value. -/
def Number.positiveInteger : Number → Option Nat
  | .finite q => if q.den = 1 ∧ 0 < q.num then some q.num.toNat else none
  | _ => none

theorem positiveInteger_pos {x : Number} {n : Nat} (positive : x.positiveInteger = some n) : 0 < n := by
  cases x with
  | finite q =>
    simp only [Number.positiveInteger] at positive
    split at positive
    · rename_i integer
      have value := Option.some.inj positive
      omega
    · cases positive
  | nan => cases positive
  | infinite negative => cases positive

theorem le_iff_not_lt {a b : Number} : a.le b = true ↔ a ≠ .nan ∧ b ≠ .nan ∧ b.lt a = false := by
  cases a with
  | nan => simp [Number.le,Number.lt,Number.same]
  | infinite negative =>
    cases b with
    | nan => simp [Number.le,Number.lt,Number.same]
    | infinite negative' => cases negative <;> cases negative' <;> simp [Number.le,Number.lt,Number.same]
    | finite q => cases negative <;> simp [Number.le,Number.lt,Number.same]
  | finite p =>
    cases b with
    | nan => simp [Number.le,Number.lt,Number.same]
    | infinite negative' => cases negative' <;> simp [Number.le,Number.lt,Number.same]
    | finite q => simp [Number.le,Number.lt,Number.same,le_iff_lt_or_eq]

end StellarAlerts.Numbers
