import Mathlib.Data.List.Induction
import Mathlib.Tactic.Ring

/-!
Digits of `w` bits regrouped into digits of `v` bits, from the highest on. Where fewer
bits are filled up than a digit has, either list of digits determines the other
(`padded_source`, `padded_target`).
-/
namespace StellarAlerts.DigitGroups

def value (base : Nat) (digits : List Nat) : Nat := digits.foldl (fun total digit => total * base + digit) 0
@[simp] theorem value_nil (base : Nat) : value base [] = 0 := rfl

@[simp] theorem value_concat (base : Nat) (digits : List Nat) (digit : Nat) :
    value base (digits ++ [digit]) = value base digits * base + digit := by
  simp [value,List.foldl_append]

theorem value_cons (base digit : Nat) (digits : List Nat) :
    value base (digit :: digits) = digit * base ^ digits.length + value base digits := by
  induction digits using List.reverseRecOn with
  | nil => simp [value]
  | append_singleton first last ih =>
    rw [← List.cons_append,value_concat,value_concat,ih,List.length_append,List.length_singleton,Nat.pow_succ]
    ring

theorem value_append (base : Nat) (a b : List Nat) : value base (a ++ b) = value base a * base ^ b.length + value base b := by
  induction b using List.reverseRecOn with
  | nil => simp
  | append_singleton first last ih =>
    rw [← List.append_assoc,value_concat,ih,value_concat,List.length_append,List.length_singleton,Nat.pow_succ]
    ring

theorem value_lt {base : Nat} {digits : List Nat} (small : ∀ d ∈ digits, d < base) : value base digits < base ^ digits.length := by
  induction digits with
  | nil => simp
  | cons digit rest ih =>
    have first : digit < base := small digit (List.mem_cons_self ..)
    have others := ih fun d listed => small d (List.mem_cons_of_mem digit listed)
    rw [value_cons,List.length_cons,Nat.pow_succ]
    calc digit * base ^ rest.length + value base rest < digit * base ^ rest.length + base ^ rest.length := by omega
      _ = (digit + 1) * base ^ rest.length := by ring
      _ ≤ base * base ^ rest.length := Nat.mul_le_mul_right _ first
      _ = base ^ rest.length * base := Nat.mul_comm ..

/-- The highest digit is what is left of the value without the others. -/
theorem value_div {base digit : Nat} {digits : List Nat} (small : ∀ d ∈ digits, d < base) :
    value base (digit :: digits) / base ^ digits.length = digit := by
  have others := value_lt small
  rw [value_cons,Nat.add_comm,Nat.add_mul_div_right _ _ (by omega),Nat.div_eq_of_lt others,Nat.zero_add]

theorem value_inj {base : Nat} {a b : List Nat} (smallA : ∀ d ∈ a, d < base) (smallB : ∀ d ∈ b, d < base)
    (length : a.length = b.length) (same : value base a = value base b) : a = b := by
  induction a using List.reverseRecOn generalizing b with
  | nil => exact (List.length_eq_zero_iff.mp length.symm).symm
  | append_singleton first last ih =>
    rcases List.eq_nil_or_concat b with rfl | ⟨others,final,rfl⟩
    · simp at length
    · rw [value_concat,List.concat_eq_append,value_concat] at same
      have lastSmall : last < base := smallA last (by simp)
      have finalSmall : final < base := smallB final (by simp)
      have lasts : last = final := by
        have rests := congrArg (· % base) same
        simpa [Nat.mod_eq_of_lt lastSmall,Nat.mod_eq_of_lt finalSmall] using rests
      have firsts : value base first = value base others := by
        rw [lasts] at same
        exact Nat.eq_of_mul_eq_mul_right (by omega : 0 < base) (by omega)
      have equal := ih (fun d listed => smallA d (by simp [listed])) (fun d listed => smallB d (by simp [listed]))
        (by simpa using length) firsts
      simp [equal,lasts]

/-- After the digits of `input` were read, those of `out` are written and the last `bits` bits wait in the buffer. -/
structure Carried (w v : Nat) (input out : List Nat) (bits buffer : Nat) : Prop where
  same : value (2 ^ w) input = value (2 ^ v) out * 2 ^ bits + buffer
  counted : w * input.length = v * out.length + bits
  small : buffer < 2 ^ bits
  digits : ∀ d ∈ out, d < 2 ^ v

variable {w v : Nat} {input out : List Nat} {bits buffer : Nat}

theorem carried_nil (w v : Nat) : Carried w v [] [] 0 0 := ⟨by simp,by simp,by simp,by simp⟩

theorem carried_take (carried : Carried w v input out bits buffer) {d : Nat} (digit : d < 2 ^ w) :
    Carried w v (input ++ [d]) out (bits + w) (buffer * 2 ^ w + d) := by
  obtain ⟨same,counted,small,digits⟩ := carried
  refine ⟨?_,?_,?_,digits⟩
  · rw [value_concat,same,Nat.pow_add]
    ring
  · rw [List.length_append,List.length_singleton,Nat.mul_add,counted]
    omega
  · rw [Nat.pow_add]
    calc buffer * 2 ^ w + d < buffer * 2 ^ w + 2 ^ w := by omega
      _ = (buffer + 1) * 2 ^ w := by ring
      _ ≤ 2 ^ bits * 2 ^ w := Nat.mul_le_mul_right _ small

/-- The highest digit is taken out of the buffer. -/
theorem carried_emit (carried : Carried w v input out (bits + v) buffer) :
    Carried w v input (out ++ [buffer / 2 ^ bits]) bits (buffer % 2 ^ bits) := by
  obtain ⟨same,counted,small,digits⟩ := carried
  refine ⟨?_,?_,Nat.mod_lt _ (Nat.two_pow_pos bits),?_⟩
  · have split : 2 ^ bits * (buffer / 2 ^ bits) + buffer % 2 ^ bits = buffer := Nat.div_add_mod ..
    rw [value_concat,same,Nat.pow_add]
    nth_rewrite 1 [← split]
    ring
  · rw [List.length_append,List.length_singleton,Nat.mul_add,counted]
    omega
  · intro d listed
    rcases List.mem_append.mp listed with before | last
    · exact digits d before
    · rw [List.mem_singleton.mp last]
      rw [Nat.add_comm,Nat.pow_add] at small
      exact Nat.div_lt_of_lt_mul (by rwa [Nat.mul_comm])

/-- The digits of `w` bits write those of `v` bits, with `fill` zero bits at the end. -/
structure Padded (w v : Nat) (target source : List Nat) (fill : Nat) : Prop where
  same : value (2 ^ w) target = value (2 ^ v) source * 2 ^ fill
  counted : w * target.length = v * source.length + fill

/-- What waits in the buffer is written as a last digit. -/
theorem Carried.finish (carried : Carried w v input out bits buffer) (room : bits ≤ v) :
    Padded v w (out ++ [buffer * 2 ^ (v - bits)]) input (v - bits) := by
  obtain ⟨same,counted,_,_⟩ := carried
  have whole : 2 ^ v = 2 ^ bits * 2 ^ (v - bits) := by rw [← Nat.pow_add,Nat.add_sub_cancel' room]
  refine ⟨?_,?_⟩
  · rw [value_concat,same]
    nth_rewrite 2 [whole]
    ring
  · rw [List.length_append,List.length_singleton,Nat.mul_add,counted]
    omega

theorem Carried.exact (carried : Carried w v input out 0 buffer) : Padded v w out input 0 := by
  obtain ⟨same,counted,small,_⟩ := carried
  have zero : buffer = 0 := by simpa using small
  exact ⟨by simp [same,zero],by omega⟩

theorem Carried.zeros (carried : Carried w v input out bits 0) : Padded w v input out bits :=
  ⟨by rw [carried.same,Nat.add_zero],carried.counted⟩

variable {p q : Nat}

theorem split_unique {n a b : Nat} (smallP : p < n) (smallQ : q < n) (same : n * a + p = n * b + q) : a = b ∧ p = q := by
  have rests := congrArg (· % n) same
  simp only [Nat.mul_add_mod,Nat.mod_eq_of_lt smallP,Nat.mod_eq_of_lt smallQ] at rests
  refine ⟨Nat.eq_of_mul_eq_mul_left (by omega : 0 < n) ?_,rests⟩
  omega

variable {source : List Nat}

theorem padded_target {target target' : List Nat} (first : Padded w v target source p) (second : Padded w v target' source q)
    (smallP : p < w) (smallQ : q < w) (digits : ∀ d ∈ target, d < 2 ^ w) (digits' : ∀ d ∈ target', d < 2 ^ w) :
    target = target' := by
  have lengths : w * target.length + q = w * target'.length + p := by
    rw [first.counted,second.counted]
    omega
  obtain ⟨length,rfl⟩ := split_unique smallQ smallP lengths
  exact value_inj digits digits' length (by rw [first.same,second.same])

theorem padded_source {target source' : List Nat} (first : Padded w v target source p) (second : Padded w v target source' q)
    (smallP : p < v) (smallQ : q < v) (digits : ∀ d ∈ source, d < 2 ^ v) (digits' : ∀ d ∈ source', d < 2 ^ v) :
    source = source' := by
  obtain ⟨length,rfl⟩ := split_unique smallP smallQ (first.counted.symm.trans second.counted)
  have values := first.same.symm.trans second.same
  exact value_inj digits digits' length (Nat.eq_of_mul_eq_mul_right (Nat.two_pow_pos p) values)

theorem buffer_of_padded {fill : Nat} (padded : Padded w v input source fill) (carried : Carried w v input out bits buffer)
    (smallFill : fill < v) (smallBits : bits < v) : buffer = 0 := by
  obtain ⟨length,rfl⟩ := split_unique smallFill smallBits (padded.counted.symm.trans carried.counted)
  have values := padded.same.symm.trans carried.same
  have rests := congrArg (· % 2 ^ fill) values
  simpa [Nat.mod_eq_of_lt carried.small] using rests.symm

end StellarAlerts.DigitGroups
