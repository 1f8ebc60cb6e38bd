import Mathlib.Data.List.TakeWhile

/-!
Integers written as text, the way JavaScript's `BigInt` reads them: blanks
around the literal are dropped, the empty text is zero, a sign may stand before
decimal digits, and `0x`, `0o` and `0b` start literals of other radices. On a
word of decimal digits it is the positional value (`BigInt_digits`).
-/
namespace StellarAlerts.IntegerText

/-- The test `/^\d+$/`. -/
def isDigits (s : String) : Bool := !s.toList.isEmpty && s.toList.all Char.isDigit

def digitValue (c : Char) : Option Nat :=
  if c.isDigit then some (c.toNat - '0'.toNat)
  else if 'a' ≤ c ∧ c ≤ 'f' then some (c.toNat - 'a'.toNat + 10)
  else if 'A' ≤ c ∧ c ≤ 'F' then some (c.toNat - 'A'.toNat + 10)
  else none

/-- One more digit of a positional number. -/
def nextDigit (radix : Nat) (value : Nat) (c : Char) : Option Nat :=
  match digitValue c with
  | some digit => if digit < radix then some (radix * value + digit) else none
  | none => none

def readDigits (radix : Nat) (word : List Char) : Option Nat :=
  if word = [] then none else word.foldlM (nextDigit radix) 0

/-- White space and line ends of the ECMAScript grammar. -/
def isStrWhiteSpace (c : Char) : Bool :=
  [0x9,0xA,0xB,0xC,0xD,0x20,0xA0,0x1680,0x2028,0x2029,0x202F,0x205F,0x3000,0xFEFF].contains c.toNat ||
    (0x2000 ≤ c.toNat && c.toNat ≤ 0x200A)

def trim (word : List Char) : List Char :=
  ((word.dropWhile isStrWhiteSpace).reverse.dropWhile isStrWhiteSpace).reverse

/-- The integer literals after trimming; a sign stands before decimal digits only. -/
def readLiteral : List Char → Option Int
  | [] => some 0
  | '-' :: rest => (readDigits 10 rest).map fun n => -(n : Int)
  | '+' :: rest => (readDigits 10 rest).map Int.ofNat
  | '0' :: 'x' :: rest => (readDigits 16 rest).map Int.ofNat
  | '0' :: 'X' :: rest => (readDigits 16 rest).map Int.ofNat
  | '0' :: 'o' :: rest => (readDigits 8 rest).map Int.ofNat
  | '0' :: 'O' :: rest => (readDigits 8 rest).map Int.ofNat
  | '0' :: 'b' :: rest => (readDigits 2 rest).map Int.ofNat
  | '0' :: 'B' :: rest => (readDigits 2 rest).map Int.ofNat
  | word => (readDigits 10 word).map Int.ofNat

/-- `BigInt(text)`; none where it throws a SyntaxError. -/
def BigInt (text : String) : Option Int := readLiteral (trim text.toList)

/-- The positional value of a word of decimal digits. -/
def decimal (s : String) : Nat := s.toList.foldl (fun value c => 10 * value + (c.toNat - '0'.toNat)) 0

theorem isDigits_iff {s : String} : isDigits s = true ↔ s.toList ≠ [] ∧ ∀ c ∈ s.toList, c.isDigit = true := by
  simp [isDigits]

variable {c : Char}

theorem digit_range (digit : c.isDigit = true) : 48 ≤ c.toNat ∧ c.toNat ≤ 57 := by
  simp only [Char.isDigit,Bool.and_eq_true,decide_eq_true_eq] at digit
  exact digit

theorem hexChar_range (hex : (digitValue c).isSome = true) :
    (48 ≤ c.toNat ∧ c.toNat ≤ 57) ∨ (97 ≤ c.toNat ∧ c.toNat ≤ 102) ∨ (65 ≤ c.toNat ∧ c.toNat ≤ 70) := by
  unfold digitValue at hex
  split at hex
  next digit => exact .inl (digit_range digit)
  next =>
    split at hex
    next lower => exact .inr (.inl lower)
    next =>
      split at hex
      next upper => exact .inr (.inr upper)
      next => cases hex

theorem digit_not_blank (digit : c.isDigit = true) : isStrWhiteSpace c = false := by
  obtain ⟨low,high⟩ := digit_range digit
  simp only [isStrWhiteSpace,List.contains_eq_mem,List.mem_cons,List.not_mem_nil,or_false,Bool.or_eq_false_iff,
    decide_eq_false_iff_not,Bool.and_eq_false_iff,not_or]
  omega

variable {word : List Char}

theorem dropWhile_kept (first : ∀ c ∈ word.head?, isStrWhiteSpace c = false) : word.dropWhile isStrWhiteSpace = word := by
  cases word with
  | nil => rfl
  | cons c rest => exact List.dropWhile_cons_of_neg (by simp [first c rfl])

theorem trim_kept (first : ∀ c ∈ word.head?, isStrWhiteSpace c = false)
    (last : ∀ c ∈ word.getLast?, isStrWhiteSpace c = false) : trim word = word := by
  unfold trim
  rw [dropWhile_kept first,dropWhile_kept (by simpa using last),List.reverse_reverse]

theorem last_of_trim (same : trim word = word) : ∀ c ∈ word.getLast?, isStrWhiteSpace c = false := by
  have inner : (word.dropWhile isStrWhiteSpace).length ≤ word.length := (List.dropWhile_suffix _).length_le
  have outer := (List.dropWhile_suffix (l := (word.dropWhile isStrWhiteSpace).reverse) isStrWhiteSpace).length_le
  have lengths := congrArg List.length same
  rw [trim,List.length_reverse] at lengths
  rw [List.length_reverse] at outer
  have whole : word.dropWhile isStrWhiteSpace = word := (List.dropWhile_suffix _).eq_of_length (by omega)
  rw [trim,whole] at same
  intro c final
  have head : (word.reverse.dropWhile isStrWhiteSpace).head? = some c := by
    rw [← List.reverse_reverse (word.reverse.dropWhile isStrWhiteSpace),same,List.head?_reverse]
    exact final
  have kept := List.head?_dropWhile_not isStrWhiteSpace word.reverse
  rw [head] at kept
  simpa using kept

/-- A text of white space. -/
def Blank (word : List Char) : Prop := ∀ c ∈ word, isStrWhiteSpace c = true

variable {blank : List Char}

theorem dropWhile_blank (all : Blank blank) : (blank ++ word).dropWhile isStrWhiteSpace = word.dropWhile isStrWhiteSpace :=
  List.dropWhile_append_of_pos all
theorem trim_blank_append (all : Blank blank) : trim (blank ++ word) = trim word := by
  rw [trim,trim,dropWhile_blank all]

theorem trim_append_blank (all : Blank blank) : trim (word ++ blank) = trim word := by
  have reversed : Blank blank.reverse := fun c listed => all c (List.mem_reverse.mp listed)
  unfold trim
  by_cases only : word.dropWhile isStrWhiteSpace = []
  · have whole : ∀ c ∈ word ++ blank, isStrWhiteSpace c = true := by
      intro c listed
      exact (List.mem_append.mp listed).elim (List.dropWhile_eq_nil_iff.mp only c) (all c)
    rw [List.dropWhile_eq_nil_iff.mpr whole,only]
  · rw [List.dropWhile_append,if_neg (by simpa using only),List.reverse_append,dropWhile_blank reversed]

theorem takeWhile_blank (word : List Char) : Blank (word.takeWhile isStrWhiteSpace) :=
  fun _ listed => List.mem_takeWhile_imp listed

/-- A text is its trimmed text between white space. -/
theorem trim_split (word : List Char) : ∃ before after, Blank before ∧ Blank after ∧ word = before ++ trim word ++ after := by
  let inner := word.dropWhile isStrWhiteSpace
  refine ⟨word.takeWhile isStrWhiteSpace,(inner.reverse.takeWhile isStrWhiteSpace).reverse,takeWhile_blank word,?_,?_⟩
  · intro c listed
    exact takeWhile_blank _ c (List.mem_reverse.mp listed)
  · have ends : inner = trim word ++ (inner.reverse.takeWhile isStrWhiteSpace).reverse := by
      rw [trim,← List.reverse_append,List.takeWhile_append_dropWhile,List.reverse_reverse]
    rw [List.append_assoc,← ends,List.takeWhile_append_dropWhile]

@[simp] theorem trim_trim (word : List Char) : trim (trim word) = trim word := by
  obtain ⟨before,after,blank,blank',wordIs⟩ := trim_split word
  have same : trim (before ++ trim word ++ after) = trim (before ++ trim word) := trim_append_blank blank'
  rw [← wordIs,trim_blank_append blank] at same
  exact same.symm

theorem trim_digits (digits : ∀ c ∈ word, c.isDigit = true) : trim word = word := by
  refine trim_kept ?_ ?_
  · intro c first
    exact digit_not_blank (digits c (List.mem_of_mem_head? first))
  · intro c last
    exact digit_not_blank (digits c (List.mem_of_mem_getLast? last))

theorem nextDigit_digit (digit : c.isDigit = true) (value : Nat) :
    nextDigit 10 value c = some (10 * value + (c.toNat - '0'.toNat)) := by
  obtain ⟨low,high⟩ := digit_range digit
  simp [nextDigit,digitValue,digit]
  omega

theorem foldlM_digits (digits : ∀ c ∈ word, c.isDigit = true) (value : Nat) :
    word.foldlM (nextDigit 10) value = some (word.foldl (fun value c => 10 * value + (c.toNat - '0'.toNat)) value) := by
  induction word generalizing value with
  | nil => rfl
  | cons c rest ih =>
    rw [List.foldlM_cons,nextDigit_digit (digits c (List.mem_cons_self ..))]
    exact ih (fun d member => digits d (List.mem_cons_of_mem c member)) _

theorem readLiteral_digits (some_ : word ≠ []) (digits : ∀ c ∈ word, c.isDigit = true) :
    readLiteral word = some (Int.ofNat (word.foldl (fun value c => 10 * value + (c.toNat - '0'.toNat)) 0)) := by
  have whole : readDigits 10 word = some (word.foldl (fun value c => 10 * value + (c.toNat - '0'.toNat)) 0) := by
    rw [readDigits,if_neg some_,foldlM_digits digits]
  -- Every other literal starts with a letter or a sign among its first two characters.
  unfold readLiteral
  split
  next => exact absurd rfl some_
  next rest => exact absurd (digits '-' (by simp)) (by decide)
  next rest => exact absurd (digits '+' (by simp)) (by decide)
  next rest => exact absurd (digits 'x' (by simp)) (by decide)
  next rest => exact absurd (digits 'X' (by simp)) (by decide)
  next rest => exact absurd (digits 'o' (by simp)) (by decide)
  next rest => exact absurd (digits 'O' (by simp)) (by decide)
  next rest => exact absurd (digits 'b' (by simp)) (by decide)
  next rest => exact absurd (digits 'B' (by simp)) (by decide)
  next => rw [whole]; rfl

/-- A word of decimal digits is read as its positional value. -/
theorem BigInt_digits {s : String} (digits : isDigits s = true) : BigInt s = some (Int.ofNat (decimal s)) := by
  obtain ⟨some_,all⟩ := isDigits_iff.mp digits
  rw [BigInt,trim_digits all,readLiteral_digits some_ all,decimal]

/-- The text of a number is a word of digits with its value. -/
theorem decimal_toString (n : Nat) : isDigits (toString n) = true ∧ decimal (toString n) = n := by
  have chars : (toString n).toList = Nat.toDigits 10 n := by rw [Nat.toString_eq_repr,Nat.toList_repr]
  refine ⟨isDigits_iff.mpr ⟨chars ▸ Nat.toDigits_ne_nil,?_⟩,?_⟩
  · intro c member
    exact Nat.isDigit_of_mem_toDigits (by decide) (by decide) (chars ▸ member)
  · rw [decimal,chars,← Nat.ofDigitChars_eq_foldl,Nat.ofDigitChars_ten_toDigits]

example : BigInt "0012" = some 12 := by decide

end StellarAlerts.IntegerText
