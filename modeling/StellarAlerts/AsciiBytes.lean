import Mathlib.Data.List.TakeWhile
import StellarAlerts.Sha256

/-!
The bytes of words: a letter of ASCII is one byte, and its byte stands for no other
letter.
-/
namespace StellarAlerts.AsciiBytes
open Sha256 (utf8)
universe u

/-- The letters from the exclamation mark to the tilde. -/
def Visible (code : Nat) : Prop := 0x20 < code ∧ code < 0x7F

variable {c : Char}

theorem encode_letter (ascii : c.toNat < 128) : String.utf8EncodeChar c = [UInt8.ofNat c.toNat] := by
  have small : c.val.toNat ≤ 0x7f := Nat.le_of_lt_succ ascii
  rw [String.utf8EncodeChar]
  exact if_pos small

theorem encode_ascii {word : List Char} (ascii : ∀ c ∈ word, c.toNat < 128) :
    word.flatMap String.utf8EncodeChar = word.map fun c => UInt8.ofNat c.toNat := by
  induction word with
  | nil => rfl
  | cons c rest ih =>
    rw [List.flatMap_cons,encode_letter (ascii c (List.mem_cons_self ..)),ih fun d listed => ascii d (List.mem_cons_of_mem c listed)]
    rfl

theorem letter_of_byte (ascii : c.toNat < 128) : Char.ofNat (UInt8.ofNat c.toNat).toNat = c := by
  rw [UInt8.toNat_ofNat',Nat.mod_eq_of_lt (by omega),Char.ofNat_toNat]

theorem byte_large {n : Nat} (low : 128 ≤ n) (high : n < 256) : 128 ≤ (UInt8.ofNat n).toNat := by
  rw [UInt8.toNat_ofNat',Nat.mod_eq_of_lt high]
  exact low

theorem letter_of_mem {b : UInt8} (listed : b ∈ String.utf8EncodeChar c) (ascii : b.toNat < 128) : c.toNat = b.toNat := by
  rw [String.utf8EncodeChar] at listed
  split at listed
  next small =>
    have value := congrArg UInt8.toNat (List.mem_singleton.mp listed)
    rw [UInt8.toNat_ofNat',Nat.mod_eq_of_lt (by omega)] at value
    exact value.symm
  next =>
    -- The bytes of all other letters are large.
    have large : 128 ≤ b.toNat := by
      split at listed
      next =>
        simp only [List.mem_cons,List.not_mem_nil,or_false] at listed
        rcases listed with rfl | rfl <;> exact byte_large (by omega) (by omega)
      next =>
        split at listed
        next =>
          simp only [List.mem_cons,List.not_mem_nil,or_false] at listed
          rcases listed with rfl | rfl | rfl <;> exact byte_large (by omega) (by omega)
        next =>
          simp only [List.mem_cons,List.not_mem_nil,or_false] at listed
          rcases listed with rfl | rfl | rfl | rfl <;> exact byte_large (by omega) (by omega)
    omega

theorem byte_not_mem (ascii : c.toNat < 128) {word : List Char} (absent : c ∉ word) :
    UInt8.ofNat c.toNat ∉ word.flatMap String.utf8EncodeChar := by
  intro listed
  obtain ⟨d,member,byte⟩ := List.mem_flatMap.mp listed
  have code : (UInt8.ofNat c.toNat).toNat = c.toNat := by rw [UInt8.toNat_ofNat',Nat.mod_eq_of_lt (by omega)]
  have same : d.toNat = c.toNat := (letter_of_mem byte (by omega)).trans code
  have letters : d = c := by rw [← Char.ofNat_toNat d,same,Char.ofNat_toNat]
  exact absent (letters ▸ member)

section Ends
variable {α : Type u} {p : α → Bool}

theorem ends_kept {first last : α} {rest : List α} (firstKept : p first = false) (lastKept : p last = false)
    (ends : (first :: rest).getLast? = some last) :
    (((first :: rest).dropWhile p).reverse.dropWhile p).reverse = first :: rest := by
  have left : (first :: rest).dropWhile p = first :: rest := List.dropWhile_cons_of_neg (by simp [firstKept])
  obtain ⟨others,word⟩ := List.getLast?_eq_some_iff.mp ends
  rw [left,word,List.reverse_append,List.reverse_singleton,List.singleton_append,
    List.dropWhile_cons_of_neg (by simp [lastKept]),List.reverse_cons,List.reverse_reverse]

theorem ends_first {first : α} (firstKept : p first = false) (rest : List α) :
    ∃ others, (((first :: rest).dropWhile p).reverse.dropWhile p).reverse = first :: others := by
  have left : (first :: rest).dropWhile p = first :: rest := List.dropWhile_cons_of_neg (by simp [firstKept])
  rw [left,List.reverse_cons,List.dropWhile_append]
  by_cases none_ : (rest.reverse.dropWhile p).isEmpty = true
  · refine ⟨[],?_⟩
    rw [if_pos none_,List.dropWhile_cons_of_neg (by simp [firstKept])]
    rfl
  · refine ⟨(rest.reverse.dropWhile p).reverse,?_⟩
    rw [if_neg none_,List.reverse_append]
    rfl

end Ends
end StellarAlerts.AsciiBytes
