import Mathlib.Data.List.Infix
import StellarAlerts.Utf16Text

/-!
Strings as the lists of their UTF-16 units, where halves of pairs may stand alone: what
cuts a string between any two units stays among them. A string shows another one if it
holds its units in a row; every string shows itself (`shows_self`).
-/
namespace StellarAlerts.UnitTexts
open Utf16Text (encode units wellFormed wellFormed_encode mem_wellFormed)

abbrev Text := List Nat

/-- The units of a literal. -/
def lit (text : String) : Text := encode text.toList

/-- `text.includes(part)`. -/
def shows (text part : Text) : Bool := text.tails.any part.isPrefixOf

/-- `text.slice(-count)`. -/
def lastUnits (count : Nat) (text : Text) : Text := text.drop (text.length - count)

/-- The characters, with U+FFFD for every half that stands alone. -/
def toText (text : Text) : String := String.ofList (wellFormed text)

/-- `text.isWellFormed()`: no half of a pair stands alone. -/
def IsWellFormed (text : Text) : Prop := ∃ word : String, lit word = text

@[simp] theorem toText_lit (word : String) : toText (lit word) = word := by
  rw [toText,lit,wellFormed_encode,String.ofList_toList]

theorem lit_toText_iff (text : Text) : lit (toText text) = text ↔ IsWellFormed text := by
  constructor
  · intro same
    exact ⟨toText text,same⟩
  · rintro ⟨word,rfl⟩
    rw [toText_lit]

/-- A unit of the basic plane is in the units of a word only for its own character. -/
theorem mem_lit {word : String} {c : Char} (basic : c.toNat < 0xD800) : c.toNat ∈ lit word ↔ c ∈ word.toList := by
  rw [lit,encode,List.mem_flatMap]
  constructor
  · rintro ⟨d,listed,among⟩
    unfold units at among
    split at among
    next => rwa [Char.toNat_inj.mp (List.mem_singleton.mp among)]
    next =>
      simp only [List.mem_cons,List.not_mem_nil,or_false] at among
      omega
  · intro listed
    exact ⟨c,listed,by simp [units,show c.toNat < 0x10000 by omega]⟩

/-- A unit that is no surrogate is among the characters of every text that holds it. -/
theorem mem_toText {text : Text} {unit : Nat} (single : unit < 0xD800) (listed : unit ∈ text) :
    Char.ofNat unit ∈ (toText text).toList := by
  rw [toText,String.toList_ofList]
  exact mem_wellFormed single listed

theorem shows_iff {text part : Text} : shows text part = true ↔ part <:+: text := by
  simp only [shows,List.any_eq_true,List.mem_tails,List.isPrefixOf_iff_prefix]
  constructor
  · rintro ⟨rest,later,starts⟩
    exact starts.isInfix.trans later.isInfix
  · rintro ⟨before,after,rfl⟩
    exact ⟨part ++ after,⟨before,by rw [List.append_assoc]⟩,List.prefix_append part after⟩

@[simp] theorem shows_self (text : Text) : shows text text = true := shows_iff.mpr (List.infix_refl text)

end StellarAlerts.UnitTexts
