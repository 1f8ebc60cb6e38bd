import StellarAlerts.ByteReaders

/-!
The binary format of WebAssembly modules, as far as their sections go: unsigned LEB128 numbers, and
what the import, memory and code sections consist of. A number may be written with more bytes than
it needs; the sizes of sections are canonical here.
-/
namespace StellarAlerts.WasmBinary
open ByteReaders

/-- The bytes that stand for a number of so many bits, the lowest seven bits first. -/
inductive Unsigned : Nat → Nat → List UInt8 → Prop where
  | last {bits : Nat} {b : UInt8} (ends : b.toNat < 128) (fits : b.toNat < 2 ^ bits) : Unsigned bits b.toNat [b]
  | more {bits m : Nat} {b : UInt8} {rest : List UInt8} (goesOn : 128 ≤ b.toNat) (room : 7 < bits)
      (higher : Unsigned (bits - 7) m rest) : Unsigned bits (m * 128 + (b.toNat - 128)) (b :: rest)

/-- A number in as few bytes as it needs. -/
def canonical (n : Nat) : List UInt8 :=
  if n < 128 then [n.toUInt8] else (n % 128 + 128).toUInt8 :: canonical (n / 128)
termination_by n
decreasing_by omega

variable {bits n : Nat}

theorem Unsigned.ne_nil {input : List UInt8} (number : Unsigned bits n input) : input ≠ [] := by
  cases number <;> exact List.cons_ne_nil _ _
theorem toNat_toUInt8 (small : n < 256) : n.toUInt8.toNat = n := by
  simp [Nat.mod_eq_of_lt small]

theorem canonical_unsigned (fits : n < 2 ^ bits) : Unsigned bits n (canonical n) := by
  induction n using Nat.strongRecOn generalizing bits with
  | ind n ih =>
    rw [canonical]
    split
    · next small =>
      have same : n.toUInt8.toNat = n := toNat_toUInt8 (by omega)
      have number : Unsigned bits n.toUInt8.toNat [n.toUInt8] := .last (by omega) (by omega)
      rwa [same] at number
    · next large =>
      have same : (n % 128 + 128).toUInt8.toNat = n % 128 + 128 := toNat_toUInt8 (by omega)
      have room : 7 < bits := by
        by_contra short
        have power : 2 ^ bits ≤ 2 ^ 7 := Nat.pow_le_pow_right (by decide) (by omega)
        omega
      obtain ⟨k,rfl⟩ : ∃ k, bits = k + 7 := ⟨bits - 7,by omega⟩
      have power : 2 ^ (k + 7) = 2 ^ k * 128 := by rw [Nat.pow_add]
      have number : Unsigned (k + 7) (n / 128 * 128 + ((n % 128 + 128).toUInt8.toNat - 128))
          ((n % 128 + 128).toUInt8 :: canonical (n / 128)) :=
        .more (by omega) room (ih (n / 128) (by omega) (by rw [Nat.add_sub_cancel]; omega))
      have value : n / 128 * 128 + ((n % 128 + 128).toUInt8.toNat - 128) = n := by omega
      rwa [value] at number

/-- A number of things and the things. -/
def Vec {α : Type} (P : α → List UInt8 → Prop) (as : List α) (input : List UInt8) : Prop :=
  ∃ count items, Unsigned 32 as.length count ∧ Items P as items ∧ input = count ++ items

/-- Bytes behind their number. -/
def Sized (contents input : List UInt8) : Prop := ∃ size, Unsigned 32 contents.length size ∧ input = size ++ contents

structure Limits where
  min : Nat
  max : Option Nat

inductive LimitsBytes : Limits → List UInt8 → Prop where
  | atLeast {min : Nat} {input : List UInt8} (number : Unsigned 32 min input) : LimitsBytes ⟨min,none⟩ (0x00 :: input)
  | between {min max : Nat} {input input' : List UInt8} (number : Unsigned 32 min input) (number' : Unsigned 32 max input') :
      LimitsBytes ⟨min,some max⟩ (0x01 :: (input ++ input'))

theorem LimitsBytes.ne_nil {limits : Limits} {input : List UInt8} (bytes : LimitsBytes limits input) : input ≠ [] := by
  cases bytes <;> exact List.cons_ne_nil _ _

/-- What is imported; element, value and mutability types are one byte each. -/
inductive ImportDesc where
  | func (typeIdx : Nat)
  | table (elemType : UInt8) (limits : Limits)
  | memory (limits : Limits)
  | global (valType mutability : UInt8)

structure Import where
  moduleName : List UInt8
  fieldName : List UInt8
  desc : ImportDesc

inductive DescBytes : ImportDesc → List UInt8 → Prop where
  | func {typeIdx : Nat} {input : List UInt8} (number : Unsigned 32 typeIdx input) : DescBytes (.func typeIdx) (0x00 :: input)
  | table (elemType : UInt8) {limits : Limits} {input : List UInt8} (bytes : LimitsBytes limits input) :
      DescBytes (.table elemType limits) (0x01 :: elemType :: input)
  | memory {limits : Limits} {input : List UInt8} (bytes : LimitsBytes limits input) :
      DescBytes (.memory limits) (0x02 :: input)
  | global (valType mutability : UInt8) : DescBytes (.global valType mutability) [0x03,valType,mutability]

def ImportBytes (i : Import) (input : List UInt8) : Prop :=
  ∃ name field desc, Sized i.moduleName name ∧ Sized i.fieldName field ∧ DescBytes i.desc desc ∧ input = name ++ (field ++ desc)

def Import.isFunction (i : Import) : Bool :=
  match i.desc with
  | .func _ => true
  | _ => false

structure Section where
  id : UInt8
  contents : List UInt8
  fits : contents.length < 2 ^ 32

def Section.bytes (s : Section) : List UInt8 := s.id :: (canonical s.contents.length ++ s.contents)

/-- `\0asm` and the version. -/
def header : List UInt8 := [0x00,0x61,0x73,0x6d,0x01,0x00,0x00,0x00]

def moduleBytes (sections : List Section) : List UInt8 := header ++ sections.flatMap Section.bytes

def AtMostOnce {α : Type} (id : UInt8) (P : α → List UInt8 → Prop) (sections : List Section) (things : Option (List α)) : Prop :=
  match things with
  | none => ∀ s ∈ sections, s.id ≠ id
  | some as => ∃ before s after, sections = before ++ s :: after ∧ s.id = id ∧ (∀ s ∈ before ++ after, s.id ≠ id) ∧
      Vec P as s.contents

/-- What the import, memory and code sections of a module consist of, where there are any. -/
structure WellFormed (sections : List Section) (imports : Option (List Import)) (memories : Option (List Limits))
    (bodies : Option (List (List UInt8))) : Prop where
  imports : AtMostOnce 2 ImportBytes sections imports
  memories : AtMostOnce 5 LimitsBytes sections memories
  bodies : AtMostOnce 10 Sized sections bodies

end StellarAlerts.WasmBinary
