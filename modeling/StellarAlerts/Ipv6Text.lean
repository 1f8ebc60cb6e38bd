import StellarAlerts.DigitGroups
import StellarAlerts.HexText
import StellarAlerts.SeparatedText

/-!
The texts of IPv6 addresses: eight groups of up to four hexadecimal digits, or
fewer with `::` for the zeros left out, the last two groups possibly as a dotted
quad. A literal is its spelling, with its text and its value of 128 bits; what the
text begins with, and its parts between colons, are read off the spelling.
-/
namespace StellarAlerts.Ipv6Text
open DigitGroups
open HexText (hexDigit)
open IntegerText

/-- The value of a hexadecimal digit. -/
def hexValue (c : Char) : Nat := (digitValue c).getD 0

/-- The number that a word of hexadecimal digits writes. -/
def wordValue (word : List Char) : Nat := value 16 (word.map hexValue)

/-- One to four hexadecimal digits, of either case. -/
structure Group where
  digits : List Char
  length : 1 ≤ digits.length ∧ digits.length ≤ 4
  hex : ∀ c ∈ digits, (digitValue c).isSome = true

def Group.value (group : Group) : Nat := wordValue group.digits

/-- Four numbers of eight bits with dots between them. -/
structure Quad where
  a : Fin 256
  b : Fin 256
  c : Fin 256
  d : Fin 256
deriving DecidableEq

def Quad.octets (quad : Quad) : List Nat := [quad.a.val,quad.b.val,quad.c.val,quad.d.val]
def Quad.text (quad : Quad) : List Char := ['.'].intercalate (quad.octets.map fun n => (toString n).toList)
def Quad.value (quad : Quad) : Nat := DigitGroups.value 256 quad.octets
def Quad.groups (quad : Quad) : List Nat := [quad.a * 256 + quad.b,quad.c * 256 + quad.d]

/-- A spelling of an address. -/
inductive Literal where
  | full (groups : List Group) (quad : Option Quad) (count : groups.length + 2 * quad.toList.length = 8)
  | compressed (before after : List Group) (quad : Option Quad)
      (count : before.length + after.length + 2 * quad.toList.length ≤ 7)

/-- The texts between the colons. -/
def parts (groups : List Group) (quad : Option Quad) : List (List Char) :=
  groups.map Group.digits ++ quad.toList.map Quad.text

/-- The numbers of sixteen bits. -/
def numbers (groups : List Group) (quad : Option Quad) : List Nat :=
  groups.map Group.value ++ quad.toList.flatMap Quad.groups

def joined (words : List (List Char)) : List Char := [':'].intercalate words

def Literal.text : Literal → List Char
  | .full groups quad _ => joined (parts groups quad)
  | .compressed before after quad _ => joined (parts before none) ++ ':' :: ':' :: joined (parts after quad)

def Literal.numbers : Literal → List Nat
  | .full groups quad _ => Ipv6Text.numbers groups quad
  | .compressed before after quad _ =>
    Ipv6Text.numbers before none ++ List.replicate (8 - (before.length + after.length + 2 * quad.toList.length)) 0 ++
      Ipv6Text.numbers after quad

/-- The 128 bits of the address. -/
def Literal.value (literal : Literal) : Nat := DigitGroups.value 65536 literal.numbers

/-! ### Digits and groups -/

def hexLetters : List Char := "0123456789abcdefABCDEF".toList

variable {c : Char}

theorem hexLetters_mem (hex : (digitValue c).isSome = true) : c ∈ hexLetters := by
  have range := hexChar_range hex
  have all : ∀ n < 103, (48 ≤ n ∧ n ≤ 57) ∨ (97 ≤ n ∧ n ≤ 102) ∨ (65 ≤ n ∧ n ≤ 70) → Char.ofNat n ∈ hexLetters := by
    decide
  rw [← Char.ofNat_toNat c]
  exact all c.toNat (by omega) range

theorem hexValue_lt (c : Char) : hexValue c < 16 := by
  unfold hexValue
  cases digit : digitValue c with
  | none => simp
  | some n =>
    have all : ∀ c ∈ hexLetters, (digitValue c).getD 0 < 16 := List.all_iff_forall_prop.mp (by decide)
    rw [← digit]
    exact all c (hexLetters_mem (by rw [digit]; rfl))

theorem hex_toLower (hex : (digitValue c).isSome = true) :
    c.toLower = hexDigit (hexValue c) ∧ digitValue c.toLower = digitValue c := by
  have all : ∀ c ∈ hexLetters, c.toLower = hexDigit (hexValue c) ∧ digitValue c.toLower = digitValue c :=
    List.all_iff_forall_prop.mp (by decide)
  exact all c (hexLetters_mem hex)

theorem hex_visible (hex : (digitValue c).isSome = true) : c ≠ ':' ∧ c ≠ '.' ∧ isStrWhiteSpace c = false := by
  have all : ∀ c ∈ hexLetters, c ≠ ':' ∧ c ≠ '.' ∧ isStrWhiteSpace c = false :=
    List.all_iff_forall_prop.mp (by decide)
  exact all c (hexLetters_mem hex)

theorem wordValue_lt (word : List Char) : wordValue word < 16 ^ word.length := by
  have small : ∀ d ∈ word.map hexValue, d < 16 := by
    intro d listed
    obtain ⟨c,_,rfl⟩ := List.mem_map.mp listed
    exact hexValue_lt c
  simpa [wordValue] using value_lt small

theorem Group.value_lt (group : Group) : group.value < 65536 := by
  have below := wordValue_lt group.digits
  have most : 16 ^ group.digits.length ≤ 16 ^ 4 := Nat.pow_le_pow_right (by decide) group.length.2
  exact Nat.lt_of_lt_of_le below most

theorem numbers_lt (groups : List Group) (quad : Option Quad) : ∀ n ∈ numbers groups quad, n < 65536 := by
  intro n listed
  rcases List.mem_append.mp listed with inGroups | inQuad
  · obtain ⟨group,_,rfl⟩ := List.mem_map.mp inGroups
    exact group.value_lt
  · obtain ⟨q,_,member⟩ := List.mem_flatMap.mp inQuad
    simp only [Quad.groups,List.mem_cons,List.not_mem_nil,or_false] at member
    omega

theorem numbers_length (groups : List Group) (quad : Option Quad) :
    (numbers groups quad).length = groups.length + 2 * quad.toList.length := by
  cases quad with
  | none => simp [numbers]
  | some q => simp [numbers,Quad.groups]

theorem Literal.numbers_lt (literal : Literal) : ∀ n ∈ literal.numbers, n < 65536 := by
  cases literal with
  | full groups quad count => exact Ipv6Text.numbers_lt groups quad
  | compressed before after quad count =>
    intro n listed
    simp only [Literal.numbers,List.mem_append,List.mem_replicate] at listed
    rcases listed with (first | zero) | last
    · exact Ipv6Text.numbers_lt before none n first
    · omega
    · exact Ipv6Text.numbers_lt after quad n last

theorem Literal.numbers_length (literal : Literal) : literal.numbers.length = 8 := by
  cases literal with
  | full groups quad count => rw [Literal.numbers,Ipv6Text.numbers_length,count]
  | compressed before after quad count =>
    simp only [Literal.numbers,List.length_append,List.length_replicate,Ipv6Text.numbers_length,Option.toList_none,
      List.length_nil]
    omega

/-! ### The first group -/

/-- The group that the text begins with; none where it begins with `::`. -/
def Literal.first : Literal → Option Group
  | .full groups _ _ => groups.head?
  | .compressed before _ _ _ => before.head?

theorem Literal.value_div (literal : Literal) : literal.value / 65536 ^ 7 = (literal.first.map Group.value).getD 0 := by
  have small := literal.numbers_lt
  have length := literal.numbers_length
  have head : literal.numbers.head? = some ((literal.first.map Group.value).getD 0) := by
    cases literal with
    | full groups quad count =>
      cases groups with
      | nil =>
        cases quad with
        | none => simp at count
        | some q => simp at count
      | cons group rest => rfl
    | compressed before after quad count =>
      cases before with
      | nil =>
        obtain ⟨zeros,zerosAre⟩ : ∃ zeros, 8 - (([] : List Group).length + after.length + 2 * quad.toList.length) = zeros + 1 :=
          ⟨7 - (after.length + 2 * quad.toList.length),by simp only [List.length_nil] at count ⊢; omega⟩
        simp only [Literal.numbers,zerosAre,Literal.first]
        rfl
      | cons group rest => rfl
  obtain ⟨rest,numbersAre⟩ := List.head?_eq_some_iff.mp head
  rw [numbersAre] at small length
  have seven : rest.length = 7 := by simpa using length
  rw [Literal.value,numbersAre,← seven]
  exact DigitGroups.value_div fun n listed => small n (List.mem_cons_of_mem _ listed)

theorem joined_cons (word : List Char) (words : List (List Char)) :
    joined (word :: words) = word ∨ ∃ rest, joined (word :: words) = word ++ ':' :: rest := by
  cases words with
  | nil => exact .inl (by simp [joined])
  | cons other words => exact .inr ⟨joined (other :: words),by simp [joined,List.intercalate_cons_cons]⟩

variable {literal : Literal}

theorem Literal.text_first {group : Group} (first : literal.first = some group) :
    ∃ rest, literal.text = group.digits ++ ':' :: rest := by
  cases literal with
  | full groups quad count =>
    obtain ⟨others,rfl⟩ := List.head?_eq_some_iff.mp first
    have more : parts others quad ≠ [] := by
      cases others with
      | nil =>
        cases quad with
        | none => simp at count
        | some q => simp at count
      | cons other others => simp [parts]
    obtain ⟨word,words,partsAre⟩ := List.exists_cons_of_ne_nil more
    refine ⟨joined (word :: words),?_⟩
    rw [Literal.text,show parts (group :: others) quad = group.digits :: parts others quad from rfl,partsAre]
    simp [joined,List.intercalate_cons_cons]
  | compressed before after quad count =>
    obtain ⟨others,rfl⟩ := List.head?_eq_some_iff.mp first
    rw [Literal.text,show parts (group :: others) none = group.digits :: parts others none from rfl]
    rcases joined_cons group.digits (parts others none) with alone | ⟨rest,more⟩
    · exact ⟨':' :: joined (parts after quad),by rw [alone]⟩
    · exact ⟨rest ++ ':' :: ':' :: joined (parts after quad),by rw [more]; simp⟩

/-- A text that begins with no group begins with two colons. -/
theorem Literal.first_none (first : literal.first = none) :
    ∃ after quad count, literal = .compressed [] after quad count := by
  cases literal with
  | full groups quad count =>
    obtain rfl := List.head?_eq_none_iff.mp first
    cases quad with
    | none => simp at count
    | some q => simp at count
  | compressed before after quad count =>
    obtain rfl := List.head?_eq_none_iff.mp first
    exact ⟨after,quad,count,rfl⟩

/-! ### The characters of a text -/

theorem digit_hex (digit : c.isDigit = true) : (digitValue c).isSome = true := by simp [digitValue,digit]
theorem octet_digits (n : Nat) : (toString n).toList ≠ [] ∧ ∀ c ∈ (toString n).toList, c.isDigit = true :=
  isDigits_iff.mp (decimal_toString n).1

theorem quad_split (quad : Quad) : quad.text.splitOn '.' = quad.octets.map fun n => (toString n).toList := by
  refine List.splitOn_intercalate '.' ?_ (by simp [Quad.octets])
  intro word listed dot
  obtain ⟨n,_,rfl⟩ := List.mem_map.mp listed
  exact absurd ((octet_digits n).2 '.' dot) (by decide)

theorem quad_text (quad : Quad) :
    quad.text = (toString quad.a.val).toList ++ '.' :: ((toString quad.b.val).toList ++ '.' ::
      ((toString quad.c.val).toList ++ '.' :: (toString quad.d.val).toList)) := by
  simp only [Quad.text,Quad.octets,List.map_cons,List.map_nil,List.intercalate_cons_cons,List.intercalate_singleton,
    List.append_assoc,List.singleton_append]

theorem quad_dot (quad : Quad) : '.' ∈ quad.text := by simp [quad_text]

theorem quad_chars {quad : Quad} (listed : c ∈ quad.text) : c.isDigit = true ∨ c = '.' := by
  rw [quad_text] at listed
  simp only [List.mem_append,List.mem_cons] at listed
  rcases listed with digit | rfl | digit | rfl | digit | rfl | digit
  · exact .inl ((octet_digits _).2 c digit)
  · exact .inr rfl
  · exact .inl ((octet_digits _).2 c digit)
  · exact .inr rfl
  · exact .inl ((octet_digits _).2 c digit)
  · exact .inr rfl
  · exact .inl ((octet_digits _).2 c digit)

variable {quad : Option Quad}

theorem part_chars {groups : List Group} {word : List Char} (listed : word ∈ parts groups quad) :
    word ≠ [] ∧ ∀ c ∈ word, (digitValue c).isSome = true ∨ c = '.' := by
  rcases List.mem_append.mp listed with inGroups | inQuad
  · obtain ⟨group,_,rfl⟩ := List.mem_map.mp inGroups
    refine ⟨?_,fun c member => .inl (group.hex c member)⟩
    intro empty
    have some_ := group.length.1
    simp [empty] at some_
  · obtain ⟨q,_,rfl⟩ := List.mem_map.mp inQuad
    exact ⟨List.ne_nil_of_mem (quad_dot q),fun c member => (quad_chars member).imp digit_hex id⟩

theorem part_no_colon {groups : List Group} : ∀ word ∈ parts groups quad, ':' ∉ word := by
  intro word listed colon
  rcases (part_chars listed).2 ':' colon with hex | dot
  · exact (hex_visible hex).1 rfl
  · exact absurd dot (by decide)

theorem split_joined {groups : List Group} (some_ : parts groups quad ≠ []) :
    (joined (parts groups quad)).splitOn ':' = parts groups quad :=
  List.splitOn_intercalate ':' part_no_colon some_

theorem Literal.text_visible (literal : Literal) : ∀ c ∈ literal.text, isStrWhiteSpace c = false := by
  have visible : ∀ {groups quad c}, c ∈ joined (parts groups quad) → isStrWhiteSpace c = false := by
    intro groups quad c listed
    rcases SeparatedText.mem_intercalate listed with rfl | ⟨word,member,inside⟩
    · decide
    · rcases (part_chars member).2 c inside with hex | rfl
      · exact (hex_visible hex).2.2
      · decide
  intro c listed
  cases literal with
  | full groups quad count => exact visible listed
  | compressed before after quad count =>
    simp only [Literal.text,List.mem_append,List.mem_cons] at listed
    rcases listed with first | rfl | rfl | last
    · exact visible first
    · decide
    · decide
    · exact visible last

/-! ### Lower case -/

def Group.lower (group : Group) : Group :=
  ⟨group.digits.map Char.toLower,by simpa using group.length,by
    intro c listed
    obtain ⟨d,member,rfl⟩ := List.mem_map.mp listed
    rw [(hex_toLower (group.hex d member)).2]
    exact group.hex d member⟩

/-- The same spelling in lower case. -/
def Literal.lower : Literal → Literal
  | .full groups quad count => .full (groups.map Group.lower) quad (by simpa using count)
  | .compressed before after quad count =>
    .compressed (before.map Group.lower) (after.map Group.lower) quad (by simpa using count)

theorem Group.lower_value (group : Group) : group.lower.value = group.value := by
  have same : (group.digits.map Char.toLower).map hexValue = group.digits.map hexValue := by
    rw [List.map_map]
    apply List.map_congr_left
    intro c listed
    simp only [Function.comp_apply,hexValue,(hex_toLower (group.hex c listed)).2]
  simp only [Group.value,Group.lower,wordValue,same]

theorem numbers_lower (groups : List Group) (quad : Option Quad) : numbers (groups.map Group.lower) quad = numbers groups quad := by
  simp [numbers,Function.comp_def,Group.lower_value]

theorem Literal.lower_value (literal : Literal) : literal.lower.value = literal.value := by
  cases literal with
  | full groups quad count => simp only [Literal.value,Literal.lower,Literal.numbers,numbers_lower]
  | compressed before after quad count =>
    simp only [Literal.value,Literal.lower,Literal.numbers,numbers_lower,List.length_map]

theorem Literal.lower_first (literal : Literal) : literal.lower.first = literal.first.map Group.lower := by
  cases literal with
  | full groups quad count => simp [Literal.lower,Literal.first]
  | compressed before after quad count => simp [Literal.lower,Literal.first]

theorem quad_lower (quad : Quad) : quad.text.map Char.toLower = quad.text := by
  have same : quad.text.map Char.toLower = quad.text.map id := by
    apply List.map_congr_left
    intro c listed
    rcases quad_chars listed with digit | rfl
    · have all : ∀ c ∈ hexLetters, c.isDigit = true → c.toLower = c := List.all_iff_forall_prop.mp (by decide)
      exact all c (hexLetters_mem (digit_hex digit)) digit
    · decide
  rw [same,List.map_id]

theorem joined_lower (words : List (List Char)) :
    (joined words).map Char.toLower = joined (words.map (List.map Char.toLower)) := by
  induction words with
  | nil => rfl
  | cons word words ih =>
    cases words with
    | nil => simp [joined]
    | cons other words =>
      simp only [joined,List.map_cons,List.intercalate_cons_cons,List.map_append,List.map_nil] at ih ⊢
      rw [ih]
      rfl

theorem parts_lower (groups : List Group) (quad : Option Quad) :
    (parts groups quad).map (List.map Char.toLower) = parts (groups.map Group.lower) quad := by
  cases quad with
  | none => simp [parts,Group.lower,Function.comp_def]
  | some q => simp [parts,Group.lower,Function.comp_def,quad_lower]

theorem Literal.lower_text (literal : Literal) : literal.lower.text = literal.text.map Char.toLower := by
  cases literal with
  | full groups quad count => simp only [Literal.lower,Literal.text,joined_lower,parts_lower]
  | compressed before after quad count =>
    simp only [Literal.lower,Literal.text,List.map_append,List.map_cons,joined_lower,parts_lower]
    rfl

/-! ### Spellings of a given text -/

theorem numbers_of_parts (groups : List Group) : numbers groups none = (parts groups none).map wordValue := by
  simp [numbers,parts,Group.value,Function.comp_def]

theorem literal_of_colons {rest : List Char} (textIs : literal.text = ':' :: ':' :: rest) :
    ∃ after quad count, literal = .compressed [] after quad count ∧ joined (parts after quad) = rest := by
  cases first : literal.first with
  | none =>
    obtain ⟨after,quad,count,rfl⟩ := Literal.first_none first
    refine ⟨after,quad,count,rfl,?_⟩
    simpa [Literal.text,parts,joined] using textIs
  | some group =>
    obtain ⟨more,begins⟩ := Literal.text_first first
    rw [begins] at textIs
    cases digits : group.digits with
    | nil =>
      have some_ := group.length.1
      simp [digits] at some_
    | cons c word =>
      rw [digits,List.cons_append,List.cons.injEq] at textIs
      exact absurd textIs.1 (hex_visible (group.hex c (by simp [digits]))).1

theorem parts_groups {groups : List Group} {words : List (List Char)} (partsAre : parts groups quad = words)
    (dots : ∀ word ∈ words, '.' ∉ word) : quad = none := by
  cases quad with
  | none => rfl
  | some q => exact absurd (quad_dot q) (dots q.text (by simp [← partsAre,parts]))

/-- The spelling `::` and the spellings `::word`. -/
theorem value_of_word {literal : Literal} {word : List Char} (textIs : literal.text = ':' :: ':' :: word)
    (colon : ':' ∉ word) (dot : '.' ∉ word) : literal.value = wordValue word := by
  obtain ⟨after,quad,count,rfl,joinedIs⟩ := literal_of_colons textIs
  by_cases none_ : parts after quad = []
  · obtain ⟨groupsNone,quadNone⟩ := List.append_eq_nil_iff.mp none_
    obtain rfl : after = [] := by simpa using groupsNone
    obtain rfl : quad = none := by simpa using quadNone
    obtain rfl : word = [] := by simpa [parts,joined] using joinedIs.symm
    rfl
  · have split := split_joined none_
    rw [joinedIs,List.splitOn_eq_singleton colon] at split
    obtain rfl := parts_groups split.symm (by simpa using dot)
    have one : after.length = 1 := by simpa [parts] using (congrArg List.length split).symm
    have number : numbers after none = [wordValue word] := by rw [numbers_of_parts,← split]; rfl
    simp only [Literal.value,Literal.numbers,number,one,List.length_nil,Option.toList_none,Nat.zero_add,Nat.mul_zero,Nat.add_zero]
    simp [value,numbers]

theorem value_of_quad {literal : Literal} {word rest : List Char}
    (textIs : literal.text = ':' :: ':' :: (word ++ ':' :: rest)) (colons : ':' ∉ word ∧ ':' ∉ rest) (dot : '.' ∈ rest) :
    ∃ quad : Quad, rest = quad.text ∧ literal.value = wordValue word * 2 ^ 32 + quad.value := by
  obtain ⟨after,quad,count,rfl,joinedIs⟩ := literal_of_colons textIs
  have some_ : parts after quad ≠ [] := by
    intro empty
    rw [empty] at joinedIs
    cases word <;> cases joinedIs
  have split := split_joined some_
  rw [joinedIs,List.splitOn_append_cons_self_of_not_mem colons.1,List.splitOn_eq_singleton colons.2] at split
  cases quad with
  | none =>
    obtain ⟨groups,_,same⟩ : ∃ group ∈ after, group.digits = rest := by
      have member : rest ∈ parts after none := by simp [← split]
      simpa [parts] using member
    exact absurd rfl (hex_visible (groups.hex '.' (same ▸ dot))).2.1
  | some q =>
    have halves : [word] ++ [rest] = after.map Group.digits ++ [q.text] := split
    obtain ⟨words,rests⟩ := List.append_inj' halves rfl
    refine ⟨q,by simpa using rests,?_⟩
    have one : after.length = 1 := by simpa using (congrArg List.length words).symm
    have number : after.map Group.value = [wordValue word] := by
      have mapped := congrArg (List.map wordValue) words
      simpa [Function.comp_def,Group.value] using mapped.symm
    simp only [Literal.value,Literal.numbers,numbers,number,one]
    simp [value,Quad.groups,Quad.value,Quad.octets]
    omega

theorem value_of_eight {words : List (List Char)} (textIs : literal.text = joined words) (eight : words.length = 8)
    (plain : ∀ word ∈ words, word ≠ [] ∧ ':' ∉ word ∧ '.' ∉ word) : literal.value = value 65536 (words.map wordValue) := by
  have split : (joined words).splitOn ':' = words :=
    List.splitOn_intercalate ':' (fun word listed => (plain word listed).2.1) (List.ne_nil_of_length_pos (by omega))
  rw [← textIs] at split
  cases literal with
  | full groups quad count =>
    have some_ : parts groups quad ≠ [] := by
      intro empty
      rw [Literal.text,empty] at split
      rw [← split] at eight
      exact absurd eight (by decide)
    rw [Literal.text,split_joined some_] at split
    obtain rfl := parts_groups split fun word listed => (plain word listed).2.2
    rw [Literal.value,Literal.numbers,numbers_of_parts,split]
  | compressed before after quad count =>
    have empty : [] ∈ words := by
      rw [← split,Literal.text,List.splitOn_append_cons_self]
      simp [List.splitOn_cons_eq_if_modifyHead]
    exact absurd rfl (plain [] empty).1

end StellarAlerts.Ipv6Text
