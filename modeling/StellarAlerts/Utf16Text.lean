import Mathlib.Algebra.GroupWithZero.Nat
import Mathlib.Data.List.Lex

/-!
Texts counted in UTF-16 units, as the `length` of a string does: one unit for a
character of the basic plane, two for another.
-/
namespace StellarAlerts.Utf16Text

/-- The units of a character. -/
def width (c : Char) : Nat := if c.toNat < 0x10000 then 1 else 2

/-- `text.length`. -/
def utf16Length (text : String) : Nat := (text.toList.map width).sum

@[simp] theorem utf16Length_append (a b : String) : utf16Length (a ++ b) = utf16Length a + utf16Length b := by
  simp [utf16Length]

theorem utf16Length_basic {text : String} (basic : ∀ c ∈ text.toList, c.toNat < 0x10000) :
    utf16Length text = text.toList.length := by
  unfold utf16Length
  generalize text.toList = word at basic
  induction word with
  | nil => rfl
  | cons c rest ih =>
    have one : width c = 1 := if_pos (basic c (by simp))
    have others := ih fun d listed => basic d (by simp [listed])
    simp only [List.map_cons,List.sum_cons,one,others,List.length_cons]
    omega

/-- The units of a character: itself, or the two surrogates of a pair. -/
def units (c : Char) : List Nat :=
  if c.toNat < 0x10000 then [c.toNat]
  else [0xD800 + (c.toNat - 0x10000) / 0x400,0xDC00 + (c.toNat - 0x10000) % 0x400]

def encode (word : List Char) : List Nat := word.flatMap units

/-- The text of the units, if every surrogate among them is in a pair. -/
def decode : List Nat → Option (List Char)
  | [] => some []
  | high :: low :: rest =>
    if 0xD800 ≤ high ∧ high < 0xDC00 then
      if 0xDC00 ≤ low ∧ low < 0xE000 then
        (decode rest).map (Char.ofNat (0x10000 + (high - 0xD800) * 0x400 + (low - 0xDC00)) :: ·)
      else none
    else if high < 0xD800 ∨ 0xE000 ≤ high ∧ high < 0x10000 then (decode (low :: rest)).map (Char.ofNat high :: ·)
    else none
  | [last] => if last < 0xD800 ∨ 0xE000 ≤ last ∧ last < 0x10000 then some [Char.ofNat last] else none

/-- `text.substring(0,count)`; none if it ends in half a pair. -/
def substring (text : String) (count : Nat) : Option String :=
  (decode ((encode text.toList).take count)).map String.ofList

theorem toNat_ofNat {n : Nat} (valid : n.isValidChar) : (Char.ofNat n).toNat = n := by
  rw [Char.ofNat,dif_pos valid]
  rfl

theorem units_single {n : Nat} (single : n < 0xD800 ∨ 0xE000 ≤ n ∧ n < 0x10000) : units (Char.ofNat n) = [n] := by
  have valid : n.isValidChar := by
    unfold Nat.isValidChar
    omega
  rw [units,toNat_ofNat valid,if_pos (by omega)]

theorem units_pair {high low : Nat} (isHigh : 0xD800 ≤ high ∧ high < 0xDC00) (isLow : 0xDC00 ≤ low ∧ low < 0xE000) :
    units (Char.ofNat (0x10000 + (high - 0xD800) * 0x400 + (low - 0xDC00))) = [high,low] := by
  have valid : (0x10000 + (high - 0xD800) * 0x400 + (low - 0xDC00)).isValidChar := by
    unfold Nat.isValidChar
    omega
  have first : 0xD800 + (0x10000 + (high - 0xD800) * 0x400 + (low - 0xDC00) - 0x10000) / 0x400 = high := by omega
  have second : 0xDC00 + (0x10000 + (high - 0xD800) * 0x400 + (low - 0xDC00) - 0x10000) % 0x400 = low := by omega
  rw [units,toNat_ofNat valid,if_neg (by omega),first,second]

theorem encode_of_decode {codes : List Nat} {word : List Char} (decoded : decode codes = some word) : encode word = codes := by
  fun_induction decode codes generalizing word with
  | case1 =>
    obtain rfl := Option.some.inj decoded
    rfl
  | case2 high low rest isHigh isLow ih =>
    obtain ⟨later,decodedLater,rfl⟩ := Option.map_eq_some_iff.mp decoded
    rw [encode,List.flatMap_cons,units_pair isHigh isLow,show later.flatMap units = rest from ih decodedLater]
    rfl
  | case3 => cases decoded
  | case4 high low rest _ single ih =>
    obtain ⟨later,decodedLater,rfl⟩ := Option.map_eq_some_iff.mp decoded
    rw [encode,List.flatMap_cons,units_single single,show later.flatMap units = low :: rest from ih decodedLater]
    rfl
  | case5 => cases decoded
  | case6 last single =>
    obtain rfl := Option.some.inj decoded
    rw [encode,List.flatMap_singleton,units_single single]
  | case7 => cases decoded

/-- The text of the units, with U+FFFD for every surrogate that is in no pair. -/
def wellFormed : List Nat → List Char
  | [] => []
  | high :: low :: rest =>
    if 0xD800 ≤ high ∧ high < 0xDC00 ∧ 0xDC00 ≤ low ∧ low < 0xE000 then
      Char.ofNat (0x10000 + (high - 0xD800) * 0x400 + (low - 0xDC00)) :: wellFormed rest
    else (if 0xD800 ≤ high ∧ high < 0xE000 then '\uFFFD' else Char.ofNat high) :: wellFormed (low :: rest)
  | [last] => [if 0xD800 ≤ last ∧ last < 0xE000 then '\uFFFD' else Char.ofNat last]

theorem toNat_valid (c : Char) : c.toNat < 0xD800 ∨ 0xDFFF < c.toNat ∧ c.toNat < 0x110000 := c.valid

theorem wellFormed_single {unit : Nat} (single : unit < 0xD800 ∨ 0xE000 ≤ unit) (rest : List Nat) :
    wellFormed (unit :: rest) = Char.ofNat unit :: wellFormed rest := by
  cases rest with
  | nil =>
    rw [wellFormed,wellFormed,if_neg (by omega)]
  | cons low rest =>
    rw [wellFormed,if_neg (by omega),if_neg (by omega)]

theorem wellFormed_encode (word : List Char) : wellFormed (encode word) = word := by
  induction word with
  | nil => rfl
  | cons c rest ih =>
    have valid := toNat_valid c
    rw [encode,List.flatMap_cons]
    rw [encode] at ih
    by_cases basic : c.toNat < 0x10000
    · rw [units,if_pos basic,List.singleton_append,wellFormed_single (by omega),ih,Char.ofNat_toNat]
    · have code : 0x10000 + (0xD800 + (c.toNat - 0x10000) / 0x400 - 0xD800) * 0x400 +
          (0xDC00 + (c.toNat - 0x10000) % 0x400 - 0xDC00) = c.toNat := by omega
      rw [units,if_neg basic,List.cons_append,List.singleton_append,wellFormed,if_pos (by omega),ih,code,Char.ofNat_toNat]

/-- A unit that is no surrogate stays among the characters. -/
theorem mem_wellFormed {word : List Nat} {unit : Nat} (single : unit < 0xD800) (listed : unit ∈ word) :
    Char.ofNat unit ∈ wellFormed word := by
  induction word using wellFormed.induct with
  | case1 => cases listed
  | case2 high low rest pair ih =>
    rw [wellFormed,if_pos pair]
    simp only [List.mem_cons] at listed ⊢
    rcases listed with first | second | later
    · omega
    · omega
    · exact .inr (ih later)
  | case3 high low rest pair ih =>
    rw [wellFormed,if_neg pair]
    rcases List.mem_cons.mp listed with rfl | later
    · rw [if_neg (by omega)]
      exact List.mem_cons_self ..
    · exact List.mem_cons_of_mem _ (ih later)
  | case4 last =>
    obtain rfl := List.mem_singleton.mp listed
    rw [wellFormed,if_neg (by omega)]
    exact List.mem_singleton_self _

/-- Two texts have the same beginning where they have the same units. -/
theorem substring_eq_iff {text text' start start' : String} {count : Nat} (cut : substring text count = some start)
    (cut' : substring text' count = some start') :
    start = start' ↔ (encode text.toList).take count = (encode text'.toList).take count := by
  obtain ⟨word,decoded,rfl⟩ := Option.map_eq_some_iff.mp cut
  obtain ⟨word',decoded',rfl⟩ := Option.map_eq_some_iff.mp cut'
  rw [String.ofList_inj]
  constructor
  · rintro rfl
    rw [← encode_of_decode decoded,encode_of_decode decoded']
  · intro same
    rw [same,decoded'] at decoded
    exact (Option.some.inj decoded).symm

/-- `text.includes(part)`: well-formed texts have their parts at whole characters. -/
def includes (text part : String) : Bool := text.toList.tails.any part.toList.isPrefixOf

/-- The texts in the order of their code units. -/
def sortTexts (texts : List String) : List String := texts.mergeSort fun a b => encode a.toList ≤ encode b.toList

theorem mem_sortTexts {texts : List String} {text : String} : text ∈ sortTexts texts ↔ text ∈ texts :=
  (List.mergeSort_perm _ _).mem_iff

end StellarAlerts.Utf16Text
