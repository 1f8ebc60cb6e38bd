import Mathlib.Data.BitVec

/-!
Remainders of a cyclic code: a register takes bits in at the top and a generator comes in for every bit
that leaves it. Reading is linear in exclusive or (`remainder_xor`), and where the generator has a
lowest bit no burst that fits the register leaves the remainder zero (`burst_detected`).
-/
namespace StellarAlerts.CyclicCodes

variable {w : Nat}

/-- The register moves up; the generator comes in for the bit that leaves. -/
def advance (g r : BitVec w) : BitVec w := if r.msb then r <<< 1 ^^^ g else r <<< 1

def top (w : Nat) (bit : Bool) : BitVec w := if bit then BitVec.twoPow w (w - 1) else 0#w
def read (g r : BitVec w) (bit : Bool) : BitVec w := advance g (r ^^^ top w bit)

/-- The register after the bits. -/
def remainder (g r : BitVec w) (bits : List Bool) : BitVec w := bits.foldl (read g) r

/-- Bits with exclusive or, place by place. -/
def differ (a b : List Bool) : List Bool := List.zipWith xor a b

theorem advance_xor (g r s : BitVec w) : advance g (r ^^^ s) = advance g r ^^^ advance g s := by
  have cancel (a b : BitVec w) : a ^^^ b = a ^^^ g ^^^ (b ^^^ g) := by
    rw [BitVec.xor_assoc a g,BitVec.xor_comm b g,← BitVec.xor_assoc g g,BitVec.xor_self,BitVec.zero_xor]
  unfold advance
  rw [BitVec.msb_xor,BitVec.shiftLeft_xor_distrib]
  cases r.msb <;> cases s.msb <;> simp only [Bool.xor_false,Bool.xor_true,Bool.false_eq_true,Bool.not_true,Bool.not_false,↓reduceIte]
  · exact (BitVec.xor_assoc ..)
  · rw [BitVec.xor_assoc,BitVec.xor_comm (s <<< 1),BitVec.xor_assoc]
  · exact cancel _ _

theorem advance_iterate_xor (g : BitVec w) (n : Nat) (r s : BitVec w) :
    (advance g)^[n] (r ^^^ s) = (advance g)^[n] r ^^^ (advance g)^[n] s := by
  induction n generalizing r s with
  | zero => rfl
  | succ n ih => rw [Function.iterate_succ_apply,advance_xor,ih,← Function.iterate_succ_apply,← Function.iterate_succ_apply]

theorem top_xor (a b : Bool) : top w (xor a b) = top w a ^^^ top w b := by
  cases a <;> cases b <;> simp [top]

theorem read_xor (g r s : BitVec w) (a b : Bool) : read g (r ^^^ s) (xor a b) = read g r a ^^^ read g s b := by
  rw [read,read,read,← advance_xor,top_xor]
  congr 1
  rw [BitVec.xor_assoc,BitVec.xor_assoc,← BitVec.xor_assoc s,← BitVec.xor_assoc (top w a),BitVec.xor_comm s]

variable {a b : List Bool}

theorem remainder_xor (g : BitVec w) {r s : BitVec w} (same : a.length = b.length) :
    remainder g (r ^^^ s) (differ a b) = remainder g r a ^^^ remainder g s b := by
  induction a generalizing b r s with
  | nil =>
    rw [List.eq_nil_of_length_eq_zero same.symm]
    rfl
  | cons bit rest ih =>
    cases b with
    | nil => cases same
    | cons other others =>
      show remainder g (read g (r ^^^ s) (xor bit other)) (differ rest others) = _
      rw [read_xor]
      exact ih (Nat.succ.inj same)

@[simp] theorem differ_length {a b : List Bool} (same : a.length = b.length) : (differ a b).length = a.length := by
  rw [differ,List.length_zipWith,← same,Nat.min_self]

theorem differ_self (a : List Bool) : differ a a = List.replicate a.length false := by
  induction a with
  | nil => rfl
  | cons bit rest ih =>
    show xor bit bit :: differ rest rest = _
    rw [ih,Bool.xor_self]
    rfl

theorem differ_zeros (a : List Bool) : differ (List.replicate a.length false) a = a := by
  induction a with
  | nil => rfl
  | cons bit rest ih =>
    show xor false bit :: differ (List.replicate rest.length false) rest = _
    rw [ih,Bool.false_xor]

theorem differ_append (same : a.length = b.length) (c d : List Bool) :
    differ (a ++ c) (b ++ d) = differ a b ++ differ c d := List.zipWith_append same

theorem eq_of_differ (same : a.length = b.length) (none_ : ∀ bit ∈ differ a b, bit = false) : a = b := by
  induction a generalizing b with
  | nil => exact (List.eq_nil_of_length_eq_zero same.symm).symm
  | cons bit rest ih =>
    cases b with
    | nil => cases same
    | cons other others =>
      have first : xor bit other = false := none_ _ List.mem_cons_self
      have later := ih (Nat.succ.inj same) fun each listed => none_ each (List.mem_cons_of_mem _ listed)
      rw [later,bne_eq_false_iff_eq.mp first]

theorem remainder_append (g r : BitVec w) (a b : List Bool) :
    remainder g r (a ++ b) = remainder g (remainder g r a) b := List.foldl_append ..

theorem remainder_zeros (g r : BitVec w) (n : Nat) : remainder g r (List.replicate n false) = (advance g)^[n] r := by
  induction n generalizing r with
  | zero => rfl
  | succ n ih =>
    rw [List.replicate_succ,Function.iterate_succ_apply]
    show remainder g (read g r false) (List.replicate n false) = _
    rw [ih,read]
    simp [top]

@[simp] theorem advance_zero (g : BitVec w) : advance g 0#w = 0#w := by simp [advance]

theorem remainder_start (g : BitVec w) (n : Nat) : remainder g 0#w (List.replicate n false) = 0#w := by
  rw [remainder_zeros]
  exact Function.iterate_fixed (advance_zero g) n

theorem top_msb (bit : Bool) (wide : 0 < w) : (top w bit).msb = bit := by
  cases bit with
  | false => simp [top]
  | true =>
    simp only [top,↓reduceIte,BitVec.msb_eq_getLsbD_last,BitVec.getLsbD_twoPow]
    simp
    omega

theorem top_low (bit : Bool) {i : Nat} (low : i < w - 1) : (top w bit).getLsbD i = false := by
  cases bit with
  | false => simp [top]
  | true =>
    simp only [top,↓reduceIte,BitVec.getLsbD_twoPow]
    simp
    omega

theorem all_false {bits : List Bool} (none_ : ∀ bit ∈ bits, bit = false) : bits = List.replicate bits.length false :=
  List.eq_replicate_iff.mpr ⟨rfl,none_⟩

section
variable {g : BitVec w} (odd : g.getLsbD 0 = true)
include odd

theorem advance_low {r : BitVec w} {k : Nat} (fits : k < w) (low : ∀ i < k + 1, (advance g r).getLsbD i = false) :
    r.msb = false ∧ ∀ i < k, r.getLsbD i = false := by
  have kept : r.msb = false := by
    cases leaves : r.msb with
    | false => rfl
    | true =>
      have lowest := low 0 (by omega)
      simp [advance,leaves,odd] at lowest
  refine ⟨kept,fun i below => ?_⟩
  have moved := low (i + 1) (by omega)
  simp only [advance,kept,Bool.false_eq_true,↓reduceIte,BitVec.getLsbD_shiftLeft] at moved
  have inside : i + 1 < w := by omega
  simpa [inside] using moved

/-- Bits that leave as many of the lowest bits zero are zero themselves. -/
theorem short_burst {bits : List Bool} {k : Nat} (few : bits.length ≤ k) (fits : k ≤ w)
    (low : ∀ i < k, (remainder g 0#w bits).getLsbD i = false) : ∀ bit ∈ bits, bit = false := by
  induction bits using List.reverseRecOn generalizing k with
  | nil => exact fun bit listed => nomatch listed
  | append_singleton before last ih =>
    obtain ⟨fewer,rfl⟩ : ∃ n, k = n + 1 := Nat.exists_eq_succ_of_ne_zero (by rintro rfl; simp at few)
    rw [remainder_append] at low
    obtain ⟨kept,lower⟩ := advance_low odd (by omega) low
    have zeros := ih (by simpa using few : before.length ≤ fewer) (by omega) fun i below => by
      have sum := lower i below
      rwa [BitVec.getLsbD_xor,top_low last (by omega),Bool.xor_false] at sum
    intro bit listed
    rcases List.mem_append.mp listed with earlier | final
    · exact zeros bit earlier
    · obtain rfl := List.mem_singleton.mp final
      rwa [all_false zeros,remainder_start,BitVec.zero_xor,top_msb bit (by omega)] at kept

theorem advance_eq_zero (wide : 0 < w) {r : BitVec w} (zero : advance g r = 0#w) : r = 0#w := by
  obtain ⟨kept,low⟩ := advance_low odd (by omega : w - 1 < w) fun i _ => by rw [zero,BitVec.getLsbD_zero]
  ext i inside
  by_cases last : i = w - 1
  · rw [BitVec.msb_eq_getLsbD_last,← last] at kept
    simpa [BitVec.getLsbD_eq_getElem inside] using kept
  · have clear := low i (by omega)
    simpa [BitVec.getLsbD_eq_getElem inside] using clear

/-- A burst no longer than the register is seen in the remainder, wherever it stands. -/
theorem burst_detected (wide : 0 < w) {before after : Nat} {burst : List Bool} (few : burst.length ≤ w)
    (zero : remainder g 0#w (List.replicate before false ++ burst ++ List.replicate after false) = 0#w) :
    ∀ bit ∈ burst, bit = false := by
  rw [remainder_append,remainder_append,remainder_start,remainder_zeros] at zero
  have clear : remainder g 0#w burst = 0#w := by
    generalize remainder g 0#w burst = r at zero
    induction after generalizing r with
    | zero => exact zero
    | succ n ih =>
      rw [Function.iterate_succ_apply] at zero
      exact advance_eq_zero odd wide (ih (advance g r) zero)
  exact short_burst odd few (Nat.le_refl w) fun i _ => by rw [clear,BitVec.getLsbD_zero]

end

end StellarAlerts.CyclicCodes
