import Mathlib.Data.Nat.Digits.Lemmas

/-!
Long multiplication on digits that stand with the least first. Every digit is multiplied
and takes the carry of the one before. On the digits of a number that gives those of the
product (`scale_canonical`); zero has one digit.
-/
namespace StellarAlerts.PositionalDigits

/-- Each digit times the factor with the carry that comes in; the carry that goes out is last. -/
def scale (base factor : Nat) : Nat → List Nat → List Nat × Nat
  | carry, [] => ([],carry)
  | carry, d :: rest =>
    let next := d * factor + carry
    let (out,last) := scale base factor (next / base) rest
    (next % base :: out,last)

/-- The digits of a carry; there are no more than the fuel. -/
def spill (base : Nat) : Nat → Nat → List Nat
  | 0, _ => []
  | fuel + 1, carry => if carry = 0 then [] else carry % base :: spill base fuel (carry / base)

/-- The digits of a number; zero has one. -/
def canonical (base n : Nat) : List Nat := if n = 0 then [0] else Nat.digits base n

section
variable {base factor : Nat} (big : 1 < base)
include big

theorem spill_digits {fuel carry : Nat} (enough : carry ≤ fuel) : spill base fuel carry = Nat.digits base carry := by
  induction fuel generalizing carry with
  | zero =>
    obtain rfl : carry = 0 := by omega
    exact (Nat.digits_zero base).symm
  | succ fuel ih =>
    rw [spill]
    split
    · rename_i none
      rw [none,Nat.digits_zero]
    · rename_i some_
      have less : carry / base < carry := Nat.div_lt_self (Nat.pos_of_ne_zero some_) big
      rw [Nat.digits_def' big (Nat.pos_of_ne_zero some_),ih (by omega)]

theorem scale_digits (carry : Nat) (digits : List Nat) :
    (scale base factor carry digits).1.length = digits.length ∧ ∀ d ∈ (scale base factor carry digits).1, d < base := by
  induction digits generalizing carry with
  | nil => exact ⟨rfl,fun d listed => nomatch listed⟩
  | cons d rest ih =>
    obtain ⟨length,small⟩ := ih ((d * factor + carry) / base)
    refine ⟨congrArg (· + 1) length,fun e listed => ?_⟩
    rcases List.mem_cons.mp listed with rfl | later
    · exact Nat.mod_lt _ (by omega)
    · exact small e later

omit big in
theorem scale_value (carry : Nat) (digits : List Nat) :
    Nat.ofDigits base (scale base factor carry digits).1 + base ^ digits.length * (scale base factor carry digits).2 =
      Nat.ofDigits base digits * factor + carry := by
  induction digits generalizing carry with
  | nil => simp [scale]
  | cons d rest ih =>
    have later := ih ((d * factor + carry) / base)
    have whole := Nat.mod_add_div (d * factor + carry) base
    simp only [scale,Nat.ofDigits_cons,List.length_cons]
    calc (d * factor + carry) % base + base * Nat.ofDigits base (scale base factor ((d * factor + carry) / base) rest).1 +
          base ^ (rest.length + 1) * (scale base factor ((d * factor + carry) / base) rest).2
        = (d * factor + carry) % base + base * (Nat.ofDigits base (scale base factor ((d * factor + carry) / base) rest).1 +
          base ^ rest.length * (scale base factor ((d * factor + carry) / base) rest).2) := by ring
      _ = (d * factor + carry) % base + base * ((d * factor + carry) / base) + base * Nat.ofDigits base rest * factor := by
        rw [later]
        ring
      _ = d * factor + carry + base * Nat.ofDigits base rest * factor := by rw [whole]
      _ = (d + base * Nat.ofDigits base rest) * factor + carry := by ring

theorem scale_carries (wide : base ≤ factor) (carry : Nat) {digits : List Nat} (some_ : digits ≠ [])
    (last : digits.getLast some_ ≠ 0) : 0 < (scale base factor carry digits).2 := by
  induction digits generalizing carry with
  | nil => exact absurd rfl some_
  | cons d rest ih =>
    cases rest with
    | nil =>
      have atLeast : base ≤ d * factor + carry :=
        (wide.trans (Nat.le_mul_of_pos_left factor (Nat.pos_of_ne_zero last))).trans (Nat.le_add_right _ _)
      exact Nat.div_pos atLeast (by omega)
    | cons e rest => exact ih ((d * factor + carry) / base) (List.cons_ne_nil e rest) last

/-- The digits of a number are made into those of the product with the carry added. -/
theorem scale_canonical (wide : base ≤ factor) (n carry : Nat) :
    (scale base factor carry (canonical base n)).1 ++
        spill base (scale base factor carry (canonical base n)).2 (scale base factor carry (canonical base n)).2 =
      canonical base (n * factor + carry) := by
  rw [spill_digits big (Nat.le_refl _)]
  by_cases zero : n = 0
  · rw [zero,Nat.zero_mul,Nat.zero_add,canonical,if_pos rfl]
    show (0 * factor + carry) % base :: Nat.digits base ((0 * factor + carry) / base) = canonical base carry
    rw [Nat.zero_mul,Nat.zero_add,canonical]
    split
    · rename_i none
      rw [none,Nat.zero_mod,Nat.zero_div,Nat.digits_zero]
    · rename_i some_
      exact (Nat.digits_def' big (Nat.pos_of_ne_zero some_)).symm
  · have written : canonical base n = Nat.digits base n := if_neg zero
    have some_ : canonical base n ≠ [] := written ▸ Nat.digits_ne_nil_iff_ne_zero.mpr zero
    have lastDigit : (canonical base n).getLast some_ ≠ 0 := by
      have last := Nat.getLast_digit_ne_zero base zero
      simp only [written]
      exact last
    have carries := scale_carries big wide carry some_ lastDigit
    obtain ⟨length,small⟩ := @scale_digits base factor big carry (canonical base n)
    have value := @scale_value base factor carry (canonical base n)
    generalize scale base factor carry (canonical base n) = scaled at *
    have whole : Nat.ofDigits base (scaled.1 ++ Nat.digits base scaled.2) = n * factor + carry := by
      rw [Nat.ofDigits_append,Nat.ofDigits_digits,length,value,written,Nat.ofDigits_digits]
    have positive : n * factor + carry ≠ 0 := by
      have : 0 < n * factor := Nat.mul_pos (Nat.pos_of_ne_zero zero) (by omega)
      omega
    have nonempty : Nat.digits base scaled.2 ≠ [] := Nat.digits_ne_nil_iff_ne_zero.mpr (by omega)
    rw [canonical,if_neg positive,← whole]
    refine (Nat.digits_ofDigits base big _ (fun d listed => ?_) fun _ => ?_).symm
    · rcases List.mem_append.mp listed with scaledDigit | spilled
      · exact small d scaledDigit
      · exact Nat.digits_lt_base big spilled
    · rw [List.getLast_append_of_ne_nil _ nonempty]
      exact Nat.getLast_digit_ne_zero base (by omega)

end

end StellarAlerts.PositionalDigits
